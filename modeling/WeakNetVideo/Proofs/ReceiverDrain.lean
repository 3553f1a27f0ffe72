import WeakNetVideo.Proofs.ReceiverSteps

/-! # What a drain and a poll can do

An unsynchronized drain either finds the first complete keyframe in id order, hands it on and keeps
only later frames, or drops the complete and the overdue frames. A synchronized drain hands on the
complete frames from the cursor on and may give up the first incomplete one. A poll rewrites nothing
but the time of the last NACK.
-/

namespace WeakNetVideo

namespace Receiver

variable {r : Receiver} {atUs : ℤ}

/-- The frame an unsynchronized drain waits for. -/
def IsSyncPoint (entry : UInt32 × FrameAssembly) : Bool := entry.2.complete && entry.2.keyframe

/-- A frame an unsynchronized drain drops on its way. -/
def Droppable (timeoutUs atUs : ℤ) (entry : UInt32 × FrameAssembly) : Bool :=
  entry.2.complete || atUs - entry.2.firstSeenUs ≥ timeoutUs

/-- The buffer without the dropped entries of a list. -/
def dropEntries (timeoutUs atUs : ℤ) : List (UInt32 × FrameAssembly) → FrameMap → FrameMap
  | [], frames => frames
  | entry :: rest, frames =>
    dropEntries timeoutUs atUs rest
      (if Droppable timeoutUs atUs entry then frames.erase entry.1 else frames)

theorem get_dropEntries {timeoutUs : ℤ} {entries : List (UInt32 × FrameAssembly)} {frames : FrameMap}
    {id : UInt32} {frame : FrameAssembly} :
    (dropEntries timeoutUs atUs entries frames)[id]? = some frame ↔
      frames[id]? = some frame ∧
        ∀ other, (id, other) ∈ entries → Droppable timeoutUs atUs (id, other) = false := by
  induction entries generalizing frames with
  | nil => simp [dropEntries]
  | cons entry rest ih =>
    obtain ⟨key, value⟩ := entry
    simp only [dropEntries, ih, List.mem_cons, Prod.mk.injEq]
    constructor
    · rintro ⟨found, clear⟩
      split_ifs at found with drop
      · obtain ⟨before, other⟩ := OrderedMap.get_of_get_erase found
        refine ⟨before, ?_⟩
        rintro value' (⟨rfl, rfl⟩ | member)
        · exact absurd rfl other
        · exact clear value' member
      · refine ⟨found, ?_⟩
        rintro value' (⟨rfl, rfl⟩ | member)
        · exact Bool.eq_false_iff.mpr drop
        · exact clear value' member
    · rintro ⟨found, clear⟩
      refine ⟨?_, fun other member => clear other (.inr member)⟩
      split_ifs with drop
      · by_cases here : key = id
        · subst here
          rw [clear value (.inl ⟨rfl, rfl⟩)] at drop
          contradiction
        · rw [OrderedMap.get_erase_of_ne here]
          exact found
      · exact found

private theorem resync_cons_other {entry : UInt32 × FrameAssembly}
    {rest : List (UInt32 × FrameAssembly)} (other : IsSyncPoint entry = false) :
    resync atUs (entry :: rest) r = resync atUs rest { r with
      frames := if Droppable r.recoveryTimeoutUs atUs entry then r.frames.erase entry.1 else r.frames
      stats := { r.stats with
        droppedFrames := r.stats.droppedFrames +
          if Droppable r.recoveryTimeoutUs atUs entry then 1 else 0 } } := by
  obtain ⟨id, frame⟩ := entry
  simp only [IsSyncPoint] at other
  simp only [resync, other, Bool.false_eq_true, if_false, Droppable, Bool.or_eq_true, decide_eq_true_eq]
  split_ifs
  · rfl
  · rfl

/-- Without a complete keyframe the drain only drops. -/
theorem resync_of_none {entries : List (UInt32 × FrameAssembly)}
    (none : ∀ entry ∈ entries, IsSyncPoint entry = false) :
    resync atUs entries r = ({ r with
      frames := dropEntries r.recoveryTimeoutUs atUs entries r.frames
      stats := { r.stats with
        droppedFrames := r.stats.droppedFrames +
          entries.countP (Droppable r.recoveryTimeoutUs atUs) } }, {}) := by
  induction entries generalizing r with
  | nil => rfl
  | cons entry rest ih =>
    rw [resync_cons_other (none entry (List.mem_cons_self ..)),
      ih fun other member => none other (List.mem_cons_of_mem _ member)]
    rw [List.countP_cons, Nat.add_comm (rest.countP _), ← Nat.add_assoc]
    rfl

/-- The first complete keyframe goes out and only later frames are kept. -/
theorem resync_of_first {before rest : List (UInt32 × FrameAssembly)} {id : UInt32}
    {frame : FrameAssembly} (none : ∀ entry ∈ before, IsSyncPoint entry = false)
    (found : IsSyncPoint (id, frame) = true) (below : ∀ entry ∈ before, compare entry.1 id = .lt) :
    resync atUs (before ++ (id, frame) :: rest) r = ({ r with
      frames := OrderedMap.eraseThrough r.frames id
      nextOutputFrameId := some (frame.frameId + 1)
      stats := { r.stats with
        completeFrames := r.stats.completeFrames + 1
        droppedFrames := r.stats.droppedFrames +
          before.countP (Droppable r.recoveryTimeoutUs atUs)
        synchronized := true } },
      { frames := [frame], sent := [keyframeAck frame.epoch frame.frameId], syncRestored := 1 }) := by
  induction before generalizing r with
  | nil =>
    simp only [IsSyncPoint] at found
    simp only [List.nil_append, resync, found, if_true, List.countP_nil, Nat.add_zero]
  | cons entry before ih =>
    rw [List.cons_append, resync_cons_other (none entry (List.mem_cons_self ..)),
      ih (fun other member => none other (List.mem_cons_of_mem _ member))
        fun other member => below other (List.mem_cons_of_mem _ member)]
    have erased : OrderedMap.eraseThrough (if Droppable r.recoveryTimeoutUs atUs entry
        then r.frames.erase entry.1 else r.frames) id = OrderedMap.eraseThrough r.frames id := by
      split_ifs with drop
      · exact OrderedMap.eraseThrough_erase (below entry (List.mem_cons_self ..))
      · rfl
    rw [List.countP_cons, Nat.add_comm (before.countP _), ← Nat.add_assoc]
    simp only [erased]

/-- The two outcomes of an unsynchronized drain. -/
theorem drain_unsynchronized (atUs : ℤ) (lost : r.stats.synchronized = false) :
    (∃ dropped, (∀ (id : UInt32) (frame : FrameAssembly), r.frames[id]? = some frame →
          IsSyncPoint (id, frame) = false) ∧
        r.drainCompleteFrames atUs = ({ r with
          frames := dropEntries r.recoveryTimeoutUs atUs r.frames.toList r.frames
          stats := { r.stats with droppedFrames := dropped } }, {})) ∨
      ∃ (id : UInt32) (frame : FrameAssembly) (dropped : ℕ), r.frames[id]? = some frame ∧
        IsSyncPoint (id, frame) = true ∧
        (∀ (other : UInt32) (earlier : FrameAssembly), r.frames[other]? = some earlier →
          other < id → IsSyncPoint (other, earlier) = false) ∧
        r.drainCompleteFrames atUs = ({ r with
          frames := OrderedMap.eraseThrough r.frames id
          nextOutputFrameId := some (frame.frameId + 1)
          stats := { r.stats with
            completeFrames := r.stats.completeFrames + 1
            droppedFrames := dropped
            synchronized := true } },
          { frames := [frame], sent := [keyframeAck frame.epoch frame.frameId], syncRestored := 1 }) := by
  have start : r.drainCompleteFrames atUs = resync atUs r.frames.toList r := by
    simp only [drainCompleteFrames, lost, Bool.false_eq_true, if_false]
  rw [start]
  cases search : r.frames.toList.find? IsSyncPoint with
  | none =>
    have none := List.find?_eq_none.mp search
    refine .inl ⟨r.stats.droppedFrames + r.frames.toList.countP (Droppable r.recoveryTimeoutUs atUs),
      fun id frame found => ?_, resync_of_none fun entry member => ?_⟩
    · exact Bool.eq_false_iff.mpr (none (id, frame) (Std.ExtTreeMap.mem_toList_iff_getElem?_eq_some.mpr found))
    · exact Bool.eq_false_iff.mpr (none entry member)
  | some entry =>
    obtain ⟨id, frame⟩ := entry
    obtain ⟨point, before, rest, split, none⟩ := List.find?_eq_some_iff_append.mp search
    refine .inr ⟨id, frame, r.stats.droppedFrames + before.countP (Droppable r.recoveryTimeoutUs atUs),
      Std.ExtTreeMap.mem_toList_iff_getElem?_eq_some.mp (split ▸ by simp), point, ?_, ?_⟩
    · intro other earlier found lower
      have member := (OrderedMap.mem_before_iff split).mpr ⟨found, Std.compare_eq_lt.mpr lower⟩
      simpa using none (other, earlier) member
    · rw [split]
      exact resync_of_first (fun other member => by simpa using none other member) point
        fun other member => ((OrderedMap.mem_before_iff split).mp member).2

/-! ## The synchronized drain -/

/-- A synchronized drain stops at once when the frame of the cursor is not there. -/
theorem drain_absent (kept : r.stats.synchronized = true)
    (absent : ∀ next, r.nextOutputFrameId = some next → r.frames[next]? = none) :
    r.drainCompleteFrames atUs = (r, {}) := by
  simp only [drainCompleteFrames, kept, if_true]
  cases r.frames.size with
  | zero => rfl
  | succ size =>
    simp only [drainInOrder]
    split
    · rfl
    · next next cursor => rw [absent next cursor]

/-- A synchronized drain hands on the complete frame of the cursor and goes on behind it. -/
theorem drain_complete (atUs : ℤ) {next : UInt32} {frame : FrameAssembly} (kept : r.stats.synchronized = true)
    (cursor : r.nextOutputFrameId = some next) (found : r.frames[next]? = some frame)
    (complete : frame.complete = true) :
    ∃ rest, rest = { r with
        frames := r.frames.erase next
        nextOutputFrameId := some (next + 1)
        stats := { r.stats with completeFrames := r.stats.completeFrames + 1 } } ∧
      r.drainCompleteFrames atUs = ((rest.drainCompleteFrames atUs).1,
        { (rest.drainCompleteFrames atUs).2 with
          frames := frame :: (rest.drainCompleteFrames atUs).2.frames }) := by
  refine ⟨_, rfl, ?_⟩
  have smaller := OrderedMap.size_erase_of_get found
  rw [drainCompleteFrames, if_pos kept, drainCompleteFrames, if_pos kept, ← smaller]
  simp only [drainInOrder, cursor, found, complete, if_true]

/-- An incomplete frame at the cursor ends a synchronized drain, and the synchronization if overdue. -/
theorem drain_incomplete {next : UInt32} {frame : FrameAssembly} (kept : r.stats.synchronized = true)
    (cursor : r.nextOutputFrameId = some next) (found : r.frames[next]? = some frame)
    (incomplete : frame.complete = false) :
    r.drainCompleteFrames atUs =
      (if atUs - frame.firstSeenUs ≥ r.recoveryTimeoutUs then
        markUnsynchronized { r with
          frames := r.frames.erase next
          nextOutputFrameId := some (next + 1)
          stats := { r.stats with droppedFrames := r.stats.droppedFrames + 1 } }
      else r, {}) := by
  have smaller := OrderedMap.size_erase_of_get found
  simp only [drainCompleteFrames, kept, if_true]
  rw [← smaller]
  simp only [drainInOrder, cursor, found, incomplete, Bool.false_eq_true, if_false]
  split_ifs <;> rfl

/-- The receiver behind the complete frame of its cursor. -/
def passFrame (r : Receiver) (next : UInt32) : Receiver :=
  { r with
    frames := r.frames.erase next
    nextOutputFrameId := some (next + 1)
    stats := { r.stats with completeFrames := r.stats.completeFrames + 1 } }

/-- Induction along a synchronized drain: over the turns that find a complete frame. -/
theorem drain_induction {motive : (r : Receiver) → r.stats.synchronized = true → Prop}
    (absent : ∀ r kept, (∀ next, r.nextOutputFrameId = some next → r.frames[next]? = none) →
      motive r kept)
    (incomplete : ∀ r kept next frame, r.nextOutputFrameId = some next →
      r.frames[next]? = some frame → frame.complete = false → motive r kept)
    (complete : ∀ r kept next frame, r.nextOutputFrameId = some next →
      r.frames[next]? = some frame → frame.complete = true → motive (r.passFrame next) kept →
      motive r kept)
    (r : Receiver) (kept : r.stats.synchronized = true) : motive r kept := by
  induction size : r.frames.size using Nat.strong_induction_on generalizing r with
  | h size ih =>
    cases cursor : r.nextOutputFrameId with
    | none => exact absent r kept fun next other => by rw [cursor] at other; contradiction
    | some next =>
      cases found : r.frames[next]? with
      | none =>
        apply absent r kept
        intro other same
        obtain rfl : next = other := Option.some.inj (cursor.symm.trans same)
        exact found
      | some frame =>
        cases whole : frame.complete with
        | false => exact incomplete r kept next frame cursor found whole
        | true =>
          have smaller : (r.passFrame next).frames.size + 1 = r.frames.size :=
            OrderedMap.size_erase_of_get found
          exact complete r kept next frame cursor found whole
            (ih _ (by omega) (r.passFrame next) kept rfl)

theorem succ_add_ofNat (next : UInt32) (i : ℕ) :
    next + 1 + UInt32.ofNat i = next + UInt32.ofNat (i + 1) := by
  rw [UInt32.add_assoc, UInt32.ofNat_add, UInt32.add_comm 1]
  rfl

/-- A synchronized drain hands on frames from the cursor on, one id after another. -/
theorem drain_synchronized (atUs : ℤ) (r : Receiver) (kept : r.stats.synchronized = true) :
    (r.drainCompleteFrames atUs).1.receiverEpoch = r.receiverEpoch ∧
      SameConfig r (r.drainCompleteFrames atUs).1 ∧
      (∀ (id : UInt32) (frame : FrameAssembly),
        (r.drainCompleteFrames atUs).1.frames[id]? = some frame → r.frames[id]? = some frame) ∧
      (∀ (i : ℕ) (frame : FrameAssembly), (r.drainCompleteFrames atUs).2.frames[i]? = some frame →
        ∃ next, r.nextOutputFrameId = some next ∧
          r.frames[next + UInt32.ofNat i]? = some frame ∧ frame.complete = true) ∧
      ((r.drainCompleteFrames atUs).1.stats.synchronized = true →
        (r.drainCompleteFrames atUs).1.nextOutputFrameId = r.nextOutputFrameId.map
          fun next => next + UInt32.ofNat (r.drainCompleteFrames atUs).2.frames.length) := by
  induction r, kept using drain_induction with
  | absent r kept absent =>
    rw [drain_absent kept absent]
    refine ⟨rfl, .refl r, fun _ _ found => found, fun i frame found => ?_, fun _ => ?_⟩
    · simp at found
    · cases r.nextOutputFrameId <;> simp
  | incomplete r kept next frame cursor found whole =>
    rw [drain_incomplete kept cursor found whole]
    split_ifs
    · refine ⟨rfl, ⟨rfl, rfl⟩, fun id other there => (OrderedMap.get_of_get_erase there).1,
        fun i other there => ?_, fun lost => ?_⟩
      · simp at there
      · simp at lost
    · refine ⟨rfl, .refl r, fun _ _ there => there, fun i other there => ?_, fun _ => ?_⟩
      · simp at there
      · simp [cursor]
  | complete r kept next frame cursor found whole ih =>
    obtain ⟨rest, rest_eq, step⟩ := drain_complete atUs kept cursor found whole
    obtain ⟨epoch, config, entries, turns, cursor'⟩ := ih
    have same : r.passFrame next = rest := rest_eq.symm
    rw [same] at epoch config entries turns cursor'
    rw [step]
    refine ⟨by rw [epoch, ← same]; rfl, .trans (s := rest) (by rw [← same]; exact ⟨rfl, rfl⟩) config,
      fun id other there => ?_, fun i other there => ⟨next, cursor, ?_⟩, fun still => ?_⟩
    · have before := entries id other there
      rw [← same] at before
      exact (OrderedMap.get_of_get_erase before).1
    · cases i with
      | zero =>
        obtain rfl : frame = other := by simpa using there
        exact ⟨by simpa using found, whole⟩
      | succ i =>
        obtain ⟨next', cursor'', before, done⟩ := turns i other (by simpa using there)
        rw [← same] at cursor'' before
        obtain rfl : next + 1 = next' := Option.some.inj cursor''
        rw [succ_add_ofNat] at before
        exact ⟨(OrderedMap.get_of_get_erase before).1, done⟩
    · rw [cursor' still, ← same, cursor]
      simp only [passFrame, Option.map_some, List.length_cons, succ_add_ofNat]

/-- A synchronized drain that leaves the synchronization keeps every incomplete frame. -/
theorem get_drain_of_incomplete {id : UInt32} {frame : FrameAssembly} (r : Receiver)
    (kept : r.stats.synchronized = true) (found : r.frames[id]? = some frame)
    (incomplete : frame.complete = false)
    (still : (r.drainCompleteFrames atUs).1.stats.synchronized = true) :
    (r.drainCompleteFrames atUs).1.frames[id]? = some frame := by
  induction r, kept using drain_induction with
  | absent r kept absent =>
    rw [drain_absent kept absent]
    exact found
  | incomplete r kept next other cursor there whole =>
    rw [drain_incomplete kept cursor there whole] at still ⊢
    split_ifs at still ⊢
    · rw [markUnsynchronized_synchronized] at still
      contradiction
    · exact found
  | complete r kept next other cursor there whole ih =>
    obtain ⟨rest, rest_eq, step⟩ := drain_complete atUs kept cursor there whole
    have same : r.passFrame next = rest := rest_eq.symm
    rw [same] at ih
    rw [step] at still ⊢
    have apart : next ≠ id := by
      rintro rfl
      obtain rfl : frame = other := Option.some.inj (found.symm.trans there)
      rw [incomplete] at whole
      contradiction
    refine ih ?_ still
    rw [← same, passFrame, OrderedMap.get_erase_of_ne apart]
    exact found

/-! ## Either drain -/

/-- A drain keeps the epoch, only erases, and hands on complete frames of the buffer. -/
theorem drain_spec (r : Receiver) (atUs : ℤ) :
    (r.drainCompleteFrames atUs).1.receiverEpoch = r.receiverEpoch ∧
      SameConfig r (r.drainCompleteFrames atUs).1 ∧
      (∀ (id : UInt32) (frame : FrameAssembly),
        (r.drainCompleteFrames atUs).1.frames[id]? = some frame → r.frames[id]? = some frame) ∧
      ∀ frame ∈ (r.drainCompleteFrames atUs).2.frames,
        ∃ id : UInt32, r.frames[id]? = some frame ∧ frame.complete = true := by
  cases flag : r.stats.synchronized with
  | true =>
    obtain ⟨epoch, config, entries, turns, _⟩ := drain_synchronized atUs r flag
    refine ⟨epoch, config, entries, fun frame member => ?_⟩
    obtain ⟨i, found⟩ := List.mem_iff_getElem?.mp member
    obtain ⟨next, _, there, whole⟩ := turns i frame found
    exact ⟨_, there, whole⟩
  | false =>
    rcases drain_unsynchronized atUs flag with ⟨_, _, step⟩ | ⟨id, frame, _, there, point, _, step⟩
    · rw [step]
      exact ⟨rfl, ⟨rfl, rfl⟩, fun id frame found => (get_dropEntries.mp found).1, fun frame member => by
        simp at member⟩
    · rw [step]
      refine ⟨rfl, ⟨rfl, rfl⟩, fun other later found => (OrderedMap.get_of_get_eraseThrough found).1,
        fun other member => ?_⟩
      obtain rfl : other = frame := by simpa using member
      simp only [IsSyncPoint, Bool.and_eq_true] at point
      exact ⟨id, there, point.1⟩

/-- A drain never unsets the cursor. -/
theorem drain_cursor (r : Receiver) (atUs : ℤ)
    (unset : (r.drainCompleteFrames atUs).1.nextOutputFrameId = none) : r.nextOutputFrameId = none := by
  cases flag : r.stats.synchronized with
  | true =>
    induction r, flag using drain_induction with
    | absent r kept absent =>
      rw [drain_absent kept absent] at unset
      exact unset
    | incomplete r kept next frame cursor found whole =>
      rw [drain_incomplete kept cursor found whole] at unset
      split_ifs at unset
      · contradiction
      · exact unset
    | complete r kept next frame cursor found whole ih =>
      obtain ⟨rest, rest_eq, step⟩ := drain_complete atUs kept cursor found whole
      rw [step, rest_eq] at unset
      exact absurd (ih unset) (Option.some_ne_none _)
  | false =>
    rcases drain_unsynchronized atUs flag with ⟨_, _, step⟩ | ⟨_, _, _, _, _, _, step⟩
    · rw [step] at unset
      exact unset
    · rw [step] at unset
      contradiction

/-! ## The poll -/

/-- A frame without the time of its last NACK. -/
def forgetNack (frame : FrameAssembly) : FrameAssembly := { frame with lastNackUs := 0 }

/-- What a poll keeps: everything but times of NACKs and the count of NACKs. -/
structure Polled (r s : Receiver) : Prop where
  config : SameConfig r s
  epoch : s.receiverEpoch = r.receiverEpoch
  cursor : s.nextOutputFrameId = r.nextOutputFrameId
  synchronized : s.stats.synchronized = r.stats.synchronized
  size : s.frames.size = r.frames.size
  frames : ∀ id : UInt32, s.frames[id]?.map forgetNack = r.frames[id]?.map forgetNack

namespace Polled

variable {r s t : Receiver}

theorem refl (r : Receiver) : Polled r r := ⟨.refl r, rfl, rfl, rfl, rfl, fun _ => rfl⟩

theorem trans (first : Polled r s) (second : Polled s t) : Polled r t :=
  ⟨first.config.trans second.config, second.epoch.trans first.epoch,
    second.cursor.trans first.cursor, second.synchronized.trans first.synchronized,
    second.size.trans first.size, fun id => (second.frames id).trans (first.frames id)⟩

theorem symm (polled : Polled r s) : Polled s r :=
  ⟨⟨polled.config.timeout.symm, polled.config.send.symm⟩, polled.epoch.symm, polled.cursor.symm,
    polled.synchronized.symm, polled.size.symm, fun id => (polled.frames id).symm⟩

/-- An entry after the poll was there before, up to the time of its last NACK. -/
theorem get {id : UInt32} {frame : FrameAssembly} (polled : Polled r s)
    (found : s.frames[id]? = some frame) : ∃ before nackUs, r.frames[id]? = some before ∧
      frame = { before with lastNackUs := nackUs } := by
  have same := polled.frames id
  rw [found, Option.map_some] at same
  obtain ⟨before, present, agree⟩ := Option.map_eq_some_iff.mp same.symm
  refine ⟨before, frame.lastNackUs, present, ?_⟩
  cases before
  cases frame
  simpa [forgetNack] using agree.symm

/-- A poll of an empty buffer leaves it empty. -/
theorem empty (polled : Polled r s) (empty : r.frames = ∅) : s.frames = ∅ := by
  rw [Std.ExtTreeMap.eq_empty_iff_size_eq_zero] at empty ⊢
  exact polled.size.trans empty

end Polled

private theorem pollFrame_polled {id : UInt32} {frame : FrameAssembly}
    (found : r.frames[id]?.map forgetNack = some (forgetNack frame)) :
    Polled r (r.pollFrame atUs (id, frame)).1 := by
  simp only [pollFrame]
  split
  · exact .refl r
  · split
    case isFalse => exact .refl r
    obtain ⟨present, there, _⟩ := Option.map_eq_some_iff.mp found
    refine ⟨⟨rfl, rfl⟩, rfl, rfl, rfl, OrderedMap.size_insert_of_get there, fun other => ?_⟩
    by_cases here : id = other
    · subst here
      rw [Std.ExtTreeMap.getElem?_insert_self, found]
      rfl
    · rw [OrderedMap.get_insert_of_ne here]

private theorem pollFrames_polled {entries : List (UInt32 × FrameAssembly)}
    (found : ∀ entry ∈ entries, r.frames[entry.1]?.map forgetNack = some (forgetNack entry.2)) :
    Polled r (pollFrames atUs entries r).1 := by
  induction entries generalizing r with
  | nil => exact .refl r
  | cons entry rest ih =>
    have first : Polled r (r.pollFrame atUs entry).1 :=
      pollFrame_polled (found entry (List.mem_cons_self ..))
    refine first.trans (ih fun other member => ?_)
    rw [first.frames]
    exact found other (List.mem_cons_of_mem _ member)

theorem receiverPoll_polled (r : Receiver) (atUs : ℤ) : Polled r (r.receiverPoll atUs).1 :=
  pollFrames_polled fun entry member => by rw [Std.ExtTreeMap.mem_toList_iff_getElem?_eq_some.mp member]; rfl

theorem poll_polled (r : Receiver) (atUs : ℤ) : Polled r (r.poll atUs).1 := by
  rw [poll]
  split_ifs
  · exact receiverPoll_polled r atUs
  · exact .refl r

theorem poll_frames (r : Receiver) (atUs : ℤ) : (r.poll atUs).2.frames = [] := by
  rw [poll]
  split_ifs <;> rfl

end Receiver

end WeakNetVideo
