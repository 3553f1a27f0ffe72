import WeakNetVideo.Soundness.FrameGate
import WeakNetVideo.Proofs.Assembly

/-! # Replay

A synchronized receiver goes on from the last frame handed on. An unsynchronized one hands on the
first complete keyframe in its buffer, however old that is: late packets of a frame that was handed on
or given up are collected again. Ids increase over a run exactly when no drain finds such a keyframe.
-/

namespace WeakNetVideo

/-- A drain without synchronization finds no complete keyframe that is as old as a frame handed on
before. -/
def NoStaleKeyframe (past : List Output) (r : Receiver) (event : ReceiverEvent) : Prop :=
  ∀ atUs, event = .drain atUs → r.stats.synchronized = false →
    ∀ (id : UInt32) (frame : FrameAssembly), r.frames[id]? = some frame →
      frame.complete = true → frame.keyframe = true →
        ∀ earlier ∈ past.flatMap Output.frames, earlier.frameId < id

/-- Every frame handed on has a larger id than all frames before it. -/
def Increasing (frames : List FrameAssembly) : Prop :=
  frames.Pairwise fun earlier later => earlier.frameId < later.frameId

variable {rtc : Rtc} {sent : List SentFrame} {r : Receiver}

private theorem isSyncPoint_iff {entry : UInt32 × FrameAssembly} : Receiver.IsSyncPoint entry = true ↔
    entry.2.complete = true ∧ entry.2.keyframe = true := by
  simp only [Receiver.IsSyncPoint, Bool.and_eq_true]

/-- A chain of frames without the id zero increases. -/
private theorem increasing_of_chain {frames : List FrameAssembly} {previous : FrameAssembly}
    (chain : List.IsChain Follows (previous :: frames)) (nonzero : ∀ frame ∈ frames, frame.frameId ≠ 0) :
    Increasing (previous :: frames) := by
  have step : List.IsChain (fun earlier later : FrameAssembly => earlier.frameId < later.frameId)
      (previous :: frames) := by
    induction frames generalizing previous with
    | nil => exact .singleton previous
    | cons frame frames ih =>
      obtain ⟨⟨_, id⟩, rest⟩ := List.isChain_cons_cons.mp chain
      refine .cons_cons ?_ (ih rest fun other member => nonzero other (List.mem_cons_of_mem _ member))
      have here := nonzero frame (List.mem_cons_self ..)
      rw [id] at here ⊢
      rw [UInt32.lt_iff_toNat_lt, UInt32.toNat_add]
      have bound := previous.frameId.toNat_lt
      have unwrapped : previous.frameId.toNat + 1 ≠ 2 ^ 32 := by
        intro last
        apply here
        rw [← UInt32.toNat_inj, UInt32.toNat_add]
        change (previous.frameId.toNat + 1) % 2 ^ 32 = 0
        rw [last, Nat.mod_self]
      change previous.frameId.toNat < (previous.frameId.toNat + 1) % 2 ^ 32
      rw [Nat.mod_eq_of_lt (by omega)]
      omega
  have : IsTrans FrameAssembly fun earlier later => earlier.frameId < later.frameId :=
    ⟨fun _ _ _ => UInt32.lt_trans⟩
  exact List.isChain_iff_pairwise.mp step

/-- The frames handed on so far increase, and the gate stands behind the last of them. -/
structure Ordered (sent : List SentFrame) (past : List Output) (r : Receiver) : Prop where
  faithful : Faithful sent r
  increasing : Increasing (past.flatMap Output.frames)
  gate : ∃ gap, Gate gap (past.flatMap Output.frames).getLast? r

/-- Frames that increase from the last of the frames before them extend these. -/
private theorem increasing_append {past frames : List FrameAssembly} {last : FrameAssembly}
    (before : Increasing past) (final : past.getLast? = some last)
    (after : Increasing (last :: frames)) : Increasing (past ++ frames) := by
  obtain ⟨above, rest⟩ := List.pairwise_cons.mp after
  refine List.pairwise_append.mpr ⟨before, rest, fun earlier member later there => ?_⟩
  obtain ⟨init, rfl⟩ := List.getLast?_eq_some_iff.mp final
  rcases List.mem_append.mp member with inside | same
  · exact UInt32.lt_trans ((List.pairwise_append.mp before).2.2 earlier inside last
      (List.mem_cons_self ..)) (above later there)
  · obtain rfl := List.mem_singleton.mp same
    exact above later there

private theorem ordered_step (wire : Wire rtc sent) (nonzero : ∀ frame ∈ sent, frame.frameId ≠ 0)
    {past : List Output} (ordered : Ordered sent past r) {event : ReceiverEvent}
    (delivered : Delivered sent event) (fresh : NoStaleKeyframe past r event) :
    Ordered sent (past ++ [(r.step rtc event).2]) (r.step rtc event).1 := by
  obtain ⟨gap, gate⟩ := ordered.gate
  have next := (gate_step rtc gate event).gate
  have last : lastFrame (past.flatMap Output.frames).getLast? (r.step rtc event).2.frames =
      ((past ++ [(r.step rtc event).2]).flatMap Output.frames).getLast? := by
    rw [List.flatMap_append, List.flatMap_singleton, List.getLast?_append, lastFrame]
  rw [last] at next
  refine ⟨faithful_step wire ordered.faithful event delivered, ?_, _, next⟩
  rw [List.flatMap_append, List.flatMap_singleton]
  rcases Receiver.drain_or_other event with ⟨atUs, rfl⟩ | other
  · cases flag : r.stats.synchronized with
    | true =>
      obtain ⟨previous, _, last, chain, _⟩ := chain_drain gate atUs flag
      refine increasing_append ordered.increasing last (increasing_of_chain chain ?_)
      intro frame member
      obtain ⟨whole, inside, id, _⟩ :=
        emitted_of_faithful rtc ordered.faithful (.drain atUs) frame member
      rw [← id]
      exact nonzero whole inside
    | false =>
      rcases Receiver.drain_unsynchronized atUs flag with
        ⟨_, _, step⟩ | ⟨id, frame, _, found, point, _, step⟩
      · simp only [Receiver.step, step, List.append_nil]
        exact ordered.increasing
      · simp only [Receiver.step, step]
        obtain ⟨complete, key⟩ := isSyncPoint_iff.mp point
        refine List.pairwise_append.mpr ⟨ordered.increasing, List.pairwise_singleton _ _,
          fun earlier member later same => ?_⟩
        obtain rfl := List.mem_singleton.mp same
        rw [(gate.labelled id later found).1]
        exact fresh atUs rfl flag id later found complete key earlier member
  · rw [Receiver.step_frames_of_ne_drain rtc r other, List.append_nil]
    exact ordered.increasing

/-- A keyframe as old as a frame handed on before breaks the order at the drain that finds it. -/
private theorem fresh_of_increasing (rtc : Rtc) (labelled : r.Labelled) {past : List Output}
    {event : ReceiverEvent}
    (increasing : Increasing ((past ++ [(r.step rtc event).2]).flatMap Output.frames)) :
    NoStaleKeyframe past r event := by
  rintro atUs rfl lost id frame found complete key earlier member
  rw [List.flatMap_append, List.flatMap_singleton] at increasing
  have across := (List.pairwise_append.mp increasing).2.2 earlier member
  rcases Receiver.drain_unsynchronized atUs lost with
    ⟨_, none, _⟩ | ⟨first, chosen, _, there, _, least, step⟩
  · have other := none id frame found
    rw [isSyncPoint_iff.mpr ⟨complete, key⟩] at other
    contradiction
  · simp only [Receiver.step, step] at across
    have order := across chosen (List.mem_singleton.mpr rfl)
    rw [(labelled first chosen there).1] at order
    by_cases below : id < first
    · have other := least id frame found below
      rw [isSyncPoint_iff.mpr ⟨complete, key⟩] at other
      contradiction
    · exact UInt32.lt_of_lt_of_le order (UInt32.not_lt.mp below)

theorem labelled_final (rtc : Rtc) (labelled : r.Labelled) (events : List ReceiverEvent) :
    ((receiverMachine rtc).final r events).Labelled :=
  (receiverMachine rtc).preserves (I := Receiver.Labelled)
    (fun _ event (_ : True) holds => Receiver.labelled_step rtc holds event) labelled
    fun _ _ => trivial

/-- Over every run of calls behind a channel, the ids handed on increase exactly when no
unsynchronized drain finds a complete keyframe as old as a frame handed on before. -/
theorem emitted_increasing_iff (demultiplexes : rtc.DemultiplexesBySecondByte)
    (senderRun : List SenderCall) (stampable : ∀ call ∈ senderRun, call.Stampable rtc)
    (short : (sentFrames rtc {} senderRun).length < 2 ^ 32) (recoveryTimeoutMs : ℤ)
    (calls : List ReceiverCall) (delivers : Delivers rtc (sentFrames rtc {} senderRun) calls) :
    Increasing (emitted rtc (.new recoveryTimeoutMs) calls) ↔
      (receiverMachine rtc).Everywhere NoStaleKeyframe [] (.new recoveryTimeoutMs)
        (runEvents rtc calls) := by
  have wire := wire_sentFrames demultiplexes stampable short
  rw [emitted_eq]
  constructor
  · intro increasing
    apply (receiverMachine rtc).everywhere_iff_cut.mpr
    intro first event rest split
    have labelled := labelled_final rtc (Receiver.labelled_new recoveryTimeoutMs) first
    apply fresh_of_increasing rtc labelled
    rw [split, Transducer.outputs_append, Transducer.outputs_cons] at increasing
    have cut : ∀ (past rest : List Output) (output : Output),
        past ++ output :: rest = (past ++ [output]) ++ rest := by simp
    rw [cut, List.flatMap_append] at increasing
    exact (List.pairwise_append.mp increasing).1
  · intro fresh
    have start : Ordered (sentFrames rtc {} senderRun) [] (.new recoveryTimeoutMs) :=
      ⟨faithful_new _ _, .nil, true, gate_new recoveryTimeoutMs⟩
    have delivered : (receiverMachine rtc).Everywhere
        (fun _ _ event => Delivered (sentFrames rtc {} senderRun) event) [] (.new recoveryTimeoutMs)
        (runEvents rtc calls) :=
      (receiverMachine rtc).everywhere_of_forall (delivered_runEvents delivers)
    have ordered := (receiverMachine rtc).invariant (I := Ordered (sentFrames rtc {} senderRun))
      (fun past s event holds admitted => ordered_step wire (fun _ => frameId_ne_zero short) holds
        admitted.1 admitted.2) start ((receiverMachine rtc).everywhere_and.mpr ⟨delivered, fresh⟩)
    exact ordered.increasing

/-- Two keyframes. -/
def twoKeyframes : List SenderCall :=
  [.setOutgoingFrame 1 true, .outgoing [some (Rtp.packet 1 true [1])],
    .outgoing [some (Rtp.packet 2 true [2])]]

theorem stampable_twoKeyframes : ∀ call ∈ twoKeyframes, call.Stampable Rtc.rfc5761 := by
  intro call member
  simp only [twoKeyframes, List.mem_cons, List.not_mem_nil, or_false] at member
  rcases member with rfl | rfl | rfl
  · trivial
  · exact stampable_packet 1 true 1
  · exact stampable_packet 2 true 2

/-- Both keyframes arrive; the decoder fails; the first arrives once more. -/
def replay : List ReceiverCall :=
  let sent := sentFrames Rtc.rfc5761 {} twoKeyframes
  [deliverTogether 1000 (sent.take 1), deliverTogether 2000 (sent.drop 1), .invalidateSync,
    deliverTogether 3000 (sent.take 1)]

/-- The first keyframe comes out again behind the second. -/
theorem replay_not_increasing :
    (∀ call ∈ twoKeyframes, call.Stampable Rtc.rfc5761) ∧
      Delivers Rtc.rfc5761 (sentFrames Rtc.rfc5761 {} twoKeyframes) replay ∧
      (emitted Rtc.rfc5761 (.new 1000) replay).map FrameAssembly.frameId = [1, 2, 1] ∧
      ¬Increasing (emitted Rtc.rfc5761 (.new 1000) replay) := by
  have ids : (emitted Rtc.rfc5761 (.new 1000) replay).map FrameAssembly.frameId = [1, 2, 1] := by
    decide +kernel
  refine ⟨stampable_twoKeyframes, ?_, ids, fun increasing => ?_⟩
  · apply delivers_together fun _ => List.mem_of_mem_take
    apply delivers_together fun _ => List.mem_of_mem_drop
    apply delivers_other fun _ => ReceiverCall.noConfusion
    exact delivers_together (fun _ => List.mem_of_mem_take) (delivers_nil _ _)
  · have pairs := List.pairwise_map.mpr increasing
    rw [ids] at pairs
    exact absurd pairs (by decide)

/-- Without the decoder's failure nothing old is found, and the ids increase. -/
theorem emitted_increasing_iff_twoKeyframes :
    let calls := [deliverTogether 1000 (sentFrames Rtc.rfc5761 {} twoKeyframes), deliverTogether 2000 []]
    (emitted Rtc.rfc5761 (.new 1000) calls).map FrameAssembly.frameId = [1, 2] ∧
      (Increasing (emitted Rtc.rfc5761 (.new 1000) calls) ↔
        (receiverMachine Rtc.rfc5761).Everywhere NoStaleKeyframe [] (.new 1000)
          (runEvents Rtc.rfc5761 calls)) := by
  refine ⟨by decide +kernel, ?_⟩
  refine emitted_increasing_iff Rtc.rfc5761_demultiplexes twoKeyframes stampable_twoKeyframes
    (by decide) 1000 _ ?_
  apply delivers_together fun _ member => member
  exact delivers_together (fun _ member => absurd member List.not_mem_nil) (delivers_nil _ _)

end WeakNetVideo
