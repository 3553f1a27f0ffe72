import WeakNetVideo.Proofs.ReceiverInvariants
import Mathlib.Data.List.Chain

/-! # The frame gate

Whatever packets arrive, the frames handed on fall into segments. A segment starts with a keyframe,
goes on without a gap in one epoch, and a new one starts exactly where the synchronization was
missing since the frame before. Every frame handed on is complete. While the receiver is synchronized its
cursor stands behind the last frame handed on and its epoch is that frame's.
-/

namespace WeakNetVideo

/-- What can be seen of one event: the frames handed on, and the flag when it is over. -/
structure Observation where
  frames : List FrameAssembly
  synchronized : Bool

def observations (rtc : Rtc) : Receiver → List ReceiverEvent → List Observation
  | _, [] => []
  | r, event :: events =>
    ⟨(r.step rtc event).2.frames, (r.step rtc event).1.stats.synchronized⟩ ::
      observations rtc (r.step rtc event).1 events

/-- Every frame handed on, and whether the flag was down at some time since the frame before it. A
drain lowers the flag only after its last frame. -/
def withGaps : Bool → List Observation → List (Bool × FrameAssembly)
  | _, [] => []
  | gap, seen :: rest =>
    match seen.frames with
    | [] => withGaps (gap || !seen.synchronized) rest
    | first :: others =>
      (gap, first) :: (others.map fun frame => (false, frame)) ++ withGaps (!seen.synchronized) rest

/-- The next frame of the same epoch; ids wrap. -/
def Follows (previous next : FrameAssembly) : Prop :=
  next.epoch = previous.epoch ∧ next.frameId = previous.frameId + 1

/-- A keyframe and frames that follow it one by one. -/
def Segment : List FrameAssembly → Prop
  | [] => False
  | first :: rest => first.keyframe = true ∧ List.IsChain Follows (first :: rest)

/-- The frames of a segment with a gap before the first only. -/
def segmentMarks : List FrameAssembly → List (Bool × FrameAssembly)
  | [] => []
  | first :: rest => (true, first) :: rest.map fun frame => (false, frame)

/-! ## Frames behind a gap and frames without one -/

/-- A frame behind a gap is a keyframe; any other follows the one before it. -/
def Gated : Option FrameAssembly → List (Bool × FrameAssembly) → Prop
  | _, [] => True
  | last, (gap, frame) :: rest =>
    (if gap then frame.keyframe = true else ∃ previous, last = some previous ∧ Follows previous frame) ∧
      Gated (some frame) rest

/-- The last of the frames handed on so far. -/
def lastFrame (last : Option FrameAssembly) (frames : List FrameAssembly) : Option FrameAssembly :=
  frames.getLast?.or last

theorem gated_append {last : Option FrameAssembly} {first second : List (Bool × FrameAssembly)}
    (left : Gated last first) (right : Gated (lastFrame last (first.map Prod.snd)) second) :
    Gated last (first ++ second) := by
  induction first generalizing last with
  | nil => exact right
  | cons entry first ih =>
    obtain ⟨gap, frame⟩ := entry
    refine ⟨left.1, ih left.2 ?_⟩
    have same : lastFrame (some frame) (first.map Prod.snd) =
        lastFrame last (((gap, frame) :: first).map Prod.snd) := by
      cases first with
      | nil => rfl
      | cons entry first =>
        simp only [lastFrame, List.map_cons, List.getLast?_cons_cons]
        rw [List.getLast?_cons, Option.some_or, Option.some_or]
    rw [same]
    exact right

/-- Gated frames are a chain from the last frame, followed by whole segments. -/
theorem segments_of_gated {last : Option FrameAssembly} {marked : List (Bool × FrameAssembly)}
    (gated : Gated last marked) : ∃ (tail : List FrameAssembly) (segments : List (List FrameAssembly)),
      marked = (tail.map fun frame => (false, frame)) ++ segments.flatMap segmentMarks ∧
        (∀ segment ∈ segments, Segment segment) ∧ List.IsChain Follows (last.toList ++ tail) ∧
        (last = none → tail = []) := by
  induction marked generalizing last with
  | nil => exact ⟨[], [], rfl, by simp, by cases last <;> simp, fun _ => rfl⟩
  | cons entry marked ih =>
    obtain ⟨gap, frame⟩ := entry
    obtain ⟨start, rest⟩ := gated
    obtain ⟨tail, segments, marked_eq, whole, chain, _⟩ := ih rest
    cases gap with
    | true =>
      refine ⟨[], (frame :: tail) :: segments, by rw [marked_eq]; rfl, ?_, by cases last <;> simp,
        fun _ => rfl⟩
      intro segment member
      rcases List.mem_cons.mp member with rfl | member
      · exact ⟨start, chain⟩
      · exact whole segment member
    | false =>
      obtain ⟨previous, rfl, follows⟩ := start
      exact ⟨frame :: tail, segments, by rw [marked_eq]; rfl, whole, .cons_cons follows chain,
        fun empty => by contradiction⟩

theorem frames_segmentMarks (segments : List (List FrameAssembly)) :
    (segments.flatMap segmentMarks).map Prod.snd = segments.flatten := by
  rw [List.map_flatMap, ← List.flatMap_id]
  apply List.flatMap_congr
  intro segment _
  cases segment <;> simp [segmentMarks]

/-! ## The invariant of the gate -/

/-- A gap is noted exactly while the flag is down; while it is up, the receiver stands behind the
last frame handed on. -/
structure Gate (gap : Bool) (last : Option FrameAssembly) (r : Receiver) : Prop where
  labelled : r.Labelled
  flag : gap = !r.stats.synchronized
  behind : r.stats.synchronized = true → ∃ previous, last = some previous ∧
    r.nextOutputFrameId = some (previous.frameId + 1) ∧ r.receiverEpoch = some previous.epoch

/-- Frames with the ids from a cursor on, in one epoch, are a chain. -/
private theorem chain_run {frames : List FrameAssembly} {previous : FrameAssembly} {next : UInt32}
    (behind : previous.frameId + 1 = next)
    (turns : ∀ (i : ℕ) (frame : FrameAssembly), frames[i]? = some frame →
      frame.frameId = next + UInt32.ofNat i ∧ frame.epoch = previous.epoch) :
    List.IsChain Follows (previous :: frames) ∧
      ∃ later, lastFrame (some previous) frames = some later ∧
        later.frameId + 1 = next + UInt32.ofNat frames.length ∧ later.epoch = previous.epoch := by
  induction frames generalizing previous next with
  | nil => exact ⟨.singleton previous, previous, rfl, by rw [behind]; simp, rfl⟩
  | cons frame frames ih =>
    obtain ⟨id, epoch⟩ := turns 0 frame rfl
    have here : frame.frameId = next := id.trans (UInt32.add_zero next)
    obtain ⟨chain, later, last, cursor, same⟩ := ih (by rw [here]) fun i other found => by
      rw [Receiver.succ_add_ofNat, epoch]
      exact turns (i + 1) other found
    refine ⟨.cons_cons ⟨epoch, by rw [here, behind]⟩ chain, later, ?_, ?_, same.trans epoch⟩
    · rw [← last]
      cases frames with
      | nil => rfl
      | cons second rest =>
        simp only [lastFrame, List.getLast?_cons_cons]
        rw [List.getLast?_cons, Option.some_or, Option.some_or]
    · rw [cursor, Receiver.succ_add_ofNat]
      rfl

/-- A chain is gated without a gap. -/
private theorem gated_of_chain {frames : List FrameAssembly} {previous : FrameAssembly}
    (chain : List.IsChain Follows (previous :: frames)) :
    Gated (some previous) (frames.map fun frame => (false, frame)) := by
  induction frames generalizing previous with
  | nil => trivial
  | cons frame frames ih =>
    obtain ⟨follows, rest⟩ := List.isChain_cons_cons.mp chain
    exact ⟨⟨previous, rfl, follows⟩, ih rest⟩

variable {rtc : Rtc} {gap : Bool} {last : Option FrameAssembly} {r : Receiver}

/-- One event keeps the gate, and what it hands on is gated. -/
structure GateStep (gap : Bool) (last : Option FrameAssembly) (frames : List FrameAssembly)
    (s : Receiver) : Prop where
  step : ∃ marked, marked.map Prod.snd = frames ∧ Gated last marked ∧
    (∀ rest, withGaps gap (⟨frames, s.stats.synchronized⟩ :: rest) =
      marked ++ withGaps (!s.stats.synchronized) rest)
  gate : Gate (!s.stats.synchronized) (lastFrame last frames) s

/-- A synchronized drain goes on from the last frame handed on, without a gap. -/
theorem chain_drain (gate : Gate gap last r) (atUs : ℤ) (kept : r.stats.synchronized = true) :
    ∃ previous later, last = some previous ∧
      List.IsChain Follows (previous :: (r.drainCompleteFrames atUs).2.frames) ∧
      lastFrame last (r.drainCompleteFrames atUs).2.frames = some later ∧
      ((r.drainCompleteFrames atUs).1.stats.synchronized = true →
        (r.drainCompleteFrames atUs).1.nextOutputFrameId = some (later.frameId + 1)) ∧
      (r.drainCompleteFrames atUs).1.receiverEpoch = some later.epoch := by
  obtain ⟨previous, rfl, cursor, epoch⟩ := gate.behind kept
  obtain ⟨epoch', _, _, turns, cursor'⟩ := Receiver.drain_synchronized atUs r kept
  obtain ⟨chain, later, last', behind, same⟩ :=
    chain_run rfl fun i frame found => by
      obtain ⟨next, start, there, _⟩ := turns i frame found
      obtain rfl := Option.some.inj (cursor.symm.trans start)
      obtain ⟨id, own⟩ := gate.labelled _ frame there
      exact ⟨id, Option.some.inj (own.symm.trans epoch)⟩
  refine ⟨previous, later, rfl, chain, last', fun still => ?_, by rw [epoch', epoch, same]⟩
  rw [cursor' still, cursor, Option.map_some, behind]

private theorem gate_drain_synchronized (gate : Gate gap last r) (atUs : ℤ)
    (kept : r.stats.synchronized = true) :
    GateStep gap last (r.drainCompleteFrames atUs).2.frames (r.drainCompleteFrames atUs).1 := by
  obtain ⟨previous, later, rfl, chain, last', cursor, epoch⟩ := chain_drain gate atUs kept
  have open' : gap = false := by rw [gate.flag, kept]; rfl
  refine ⟨⟨_, by simp, gated_of_chain chain, fun rest => ?_⟩,
    Receiver.labelled_drain gate.labelled atUs, rfl, fun still => ⟨later, last', cursor still, epoch⟩⟩
  rw [open']
  cases (r.drainCompleteFrames atUs).2.frames <;> rfl

private theorem gate_drain_unsynchronized (gate : Gate gap last r) (atUs : ℤ)
    (lost : r.stats.synchronized = false) :
    GateStep gap last (r.drainCompleteFrames atUs).2.frames (r.drainCompleteFrames atUs).1 := by
  have labelled := Receiver.labelled_drain gate.labelled atUs
  have closed : gap = true := by rw [gate.flag, lost]; rfl
  rcases Receiver.drain_unsynchronized atUs lost with
    ⟨_, _, step⟩ | ⟨id, frame, _, there, point, _, step⟩
  · rw [step] at labelled ⊢
    refine ⟨⟨[], rfl, trivial, fun rest => ?_⟩, labelled, rfl, fun still => ?_⟩
    · simp only [withGaps, closed, lost, Bool.true_or, List.nil_append, Bool.not_false]
    · simp only [lost, Bool.false_eq_true] at still
  · rw [step] at labelled ⊢
    simp only [Receiver.IsSyncPoint, Bool.and_eq_true] at point
    exact ⟨⟨[(true, frame)], rfl, ⟨point.2, trivial⟩, fun rest => by rw [closed]; rfl⟩, labelled, rfl,
      fun _ => ⟨frame, rfl, rfl, (gate.labelled id frame there).2⟩⟩

theorem gate_step (rtc : Rtc) (gate : Gate gap last r) (event : ReceiverEvent) :
    GateStep gap last (r.step rtc event).2.frames (r.step rtc event).1 := by
  rcases Receiver.drain_or_other event with ⟨atUs, rfl⟩ | other
  · cases flag : r.stats.synchronized with
    | true => exact gate_drain_synchronized gate atUs flag
    | false => exact gate_drain_unsynchronized gate atUs flag
  · rw [Receiver.step_frames_of_ne_drain rtc r other]
    refine ⟨⟨[], rfl, trivial, fun rest => ?_⟩, Receiver.labelled_step rtc gate.labelled event, rfl,
      fun kept => ?_⟩
    · have flag : (gap || !(r.step rtc event).1.stats.synchronized) =
          !(r.step rtc event).1.stats.synchronized := by
        rw [gate.flag]
        cases kept : (r.step rtc event).1.stats.synchronized with
        | false => simp
        | true => rw [(Receiver.step_synchronized_of_ne_drain other kept).1]; rfl
      simp only [withGaps, flag, List.nil_append]
    · obtain ⟨was, epoch, cursor⟩ := Receiver.step_synchronized_of_ne_drain other kept
      obtain ⟨previous, rfl, start, own⟩ := gate.behind was
      exact ⟨previous, rfl, cursor _ start, epoch.trans own⟩

/-- The gate holds along every run. -/
private theorem gated_observations (rtc : Rtc) (gate : Gate gap last r) (events : List ReceiverEvent) :
    Gated last (withGaps gap (observations rtc r events)) ∧
      (withGaps gap (observations rtc r events)).map Prod.snd =
        ((receiverMachine rtc).outputs r events).flatMap Output.frames := by
  induction events generalizing gap last r with
  | nil => exact ⟨trivial, rfl⟩
  | cons event events ih =>
    obtain ⟨⟨marked, frames, gated, split⟩, next⟩ := gate_step rtc gate event
    obtain ⟨rest, same⟩ := ih next
    rw [observations, split]
    refine ⟨gated_append gated (by rw [frames]; exact rest), ?_⟩
    rw [List.map_append, frames, same]
    rfl

theorem gate_new (recoveryTimeoutMs : ℤ) : Gate true none (Receiver.new recoveryTimeoutMs) :=
  ⟨Receiver.labelled_new recoveryTimeoutMs, rfl, fun kept => by simp [Receiver.new] at kept⟩

/-- Whatever a run of events hands on is complete. -/
theorem complete_of_outputs (rtc : Rtc) (r : Receiver) (events : List ReceiverEvent) :
    ∀ frame ∈ ((receiverMachine rtc).outputs r events).flatMap Output.frames, frame.complete = true := by
  induction events generalizing r with
  | nil => simp
  | cons event events ih =>
    intro frame member
    rw [Transducer.outputs_cons, List.flatMap_cons, List.mem_append] at member
    rcases member with here | later
    · rcases Receiver.drain_or_other event with ⟨atUs, rfl⟩ | other
      · obtain ⟨_, _, complete⟩ := (Receiver.drain_spec r atUs).2.2.2 frame here
        exact complete
      · rw [receiverMachine_step, Receiver.step_frames_of_ne_drain rtc r other] at here
        exact absurd here (List.not_mem_nil)
    · exact ih _ frame later

/-- The frames handed on over any run of calls are complete and split into segments, and a segment starts
exactly where the flag was down since the frame before. -/
theorem emitted_segments (rtc : Rtc) (recoveryTimeoutMs : ℤ) (calls : List ReceiverCall) :
    ∃ segments : List (List FrameAssembly),
      segments.flatten = emitted rtc (.new recoveryTimeoutMs) calls ∧
        (∀ segment ∈ segments, Segment segment ∧ ∀ frame ∈ segment, frame.complete = true) ∧
        withGaps true (observations rtc (.new recoveryTimeoutMs) (runEvents rtc calls)) =
          segments.flatMap segmentMarks := by
  obtain ⟨gated, frames⟩ := gated_observations rtc (gate_new recoveryTimeoutMs) (runEvents rtc calls)
  obtain ⟨tail, segments, marked, whole, _, empty⟩ := segments_of_gated gated
  rw [empty rfl, List.map_nil, List.nil_append] at marked
  have flat : segments.flatten = emitted rtc (.new recoveryTimeoutMs) calls := by
    rw [emitted_eq, ← frames, marked, frames_segmentMarks]
  refine ⟨segments, flat, fun segment member => ⟨whole segment member, fun frame inside => ?_⟩, marked⟩
  have handed : frame ∈ emitted rtc (.new recoveryTimeoutMs) calls :=
    flat ▸ List.mem_flatten_of_mem member inside
  rw [emitted_eq] at handed
  exact complete_of_outputs rtc _ _ frame handed

end WeakNetVideo
