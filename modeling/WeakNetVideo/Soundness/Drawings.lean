import WeakNetVideo.Proofs.RendererTurns

/-! # What the renderer draws

Clones are drawn in the order in which they were submitted, each with tools of its own geometry, and a clone that is
taken off the queue is one of the last three.
-/

namespace WeakNetVideo

open VideoRenderer

variable {r : VideoRenderer}

/-- The clone that a submission makes. -/
def submitted (r : VideoRenderer) : RendererEvent → Option Sized
  | .submit geometry true => if r.usedNull then none else some ⟨r.nextObject, geometry⟩
  | _ => none

/-- The clones of a run, in the order of their submission. -/
def submissions (r : VideoRenderer) (events : List RendererEvent) : List Sized :=
  rendererMachine.marks submitted r events

/-- What a run draws. -/
def drawings (r : VideoRenderer) (events : List RendererEvent) : List Drawing :=
  (rendererMachine.outputs r events).filterMap RendererShown.drawn

/-- The tools of a picture. -/
def Drawing.tools (drawing : Drawing) : List Sized := [drawing.texture, drawing.sws, drawing.yuvFrame]

/-- The tools of the loop are made for the geometry that it remembers. -/
private def Fitted (loop : RenderLoop) : Prop :=
  ∀ tool ∈ loop.texture.toList ++ loop.sws.toList ++ loop.yuvFrame.toList, tool.geometry = loop.current

private theorem fitted_remade (r : VideoRenderer) (reply : SdlReply) : Fitted (remade r reply r.loop.current).loop := by
  intro tool member
  rw [(remade_spec r reply r.loop.current).beside.current]
  simp only [remade, VideoRenderer.makeTexture, VideoRenderer.makeSws, VideoRenderer.makeYuvFrame, loop_make,
    List.mem_append, Option.mem_toList, Option.map_eq_some_iff] at member
  rcases member with (⟨_, _, rfl⟩ | ⟨_, _, rfl⟩) | ⟨_, _, rfl⟩ <;> rfl

/-- What a turn with a clone does to the rest. The clone is drawn, or let go, or kept where the turn stops. -/
private structure Rendered (frame : Sized) (r next : VideoRenderer) (drawn : Option Drawing) : Prop where
  frames : next.frames = r.frames
  nextObject : r.nextObject ≤ next.nextObject
  fitted : Fitted next.loop
  clone : (drawn.toList.map Drawing.frame ++ next.turn.clone.toList).Sublist [frame]
  drawn : ∀ drawing ∈ drawn, drawing.frame = frame ∧ ∀ tool ∈ drawing.tools, tool.geometry = frame.geometry

private theorem rendered_draw {frame : Sized} (here : r.turn = .drawing frame) (fitted : Fitted r.loop)
    (same : r.loop.current = frame.geometry) : Rendered frame r (r.draw frame).1 (r.draw frame).2.drawn := by
  rcases draw_cases r frame with ⟨yuvFrame, sws, buffer, scaler, step⟩ | ⟨_, step⟩
  · rw [step]
    refine ⟨rfl, le_rfl, fitted, ?_, fun drawing drawn => ?_⟩
    · cases r.loop.texture with
      | none => exact List.nil_sublist _
      | some texture => exact List.Sublist.refl _
    · obtain ⟨texture, there, rfl⟩ := Option.map_eq_some_iff.mp drawn
      refine ⟨rfl, fun tool member => same ▸ fitted tool ?_⟩
      simpa [Drawing.tools, there, scaler, buffer] using member
  · rw [step]
    refine ⟨rfl, le_rfl, fitted, ?_, fun drawing none => by contradiction⟩
    rw [here]
    exact List.Sublist.refl _

private theorem rendered_render {frame : Sized} (here : r.turn = .drawing frame) (fitted : Fitted r.loop)
    (reply : SdlReply) : Rendered frame r (r.render frame reply).1 (r.render frame reply).2.drawn := by
  rw [VideoRenderer.render]
  split_ifs with anew
  · have opened := beside_openWindow { r with loop := { r.loop with current := frame.geometry } } reply
    generalize VideoRenderer.openWindow { r with loop := { r.loop with current := frame.geometry } } reply =
      window at opened
    have current : window.1.loop.current = frame.geometry := opened.current
    have turn : window.1.turn = .drawing frame := opened.turn.trans here
    simp only
    split_ifs with closed null
    · exact ⟨opened.frames, opened.nextObject, fun tool member => by simp [VideoRenderer.leave] at member,
        List.nil_sublist _, fun drawing none => by contradiction⟩
    all_goals
      have made := fitted_remade window.1 reply
      rw [current] at made
      have beside := (remade_spec window.1 reply frame.geometry).beside
    · refine ⟨beside.frames.trans opened.frames, le_trans opened.nextObject beside.nextObject, made, ?_,
        fun drawing none => by contradiction⟩
      change ([] ++ (remade window.1 reply frame.geometry).turn.clone.toList).Sublist [frame]
      rw [beside.turn.trans turn]
      exact List.Sublist.refl _
    · have drawn := rendered_draw (beside.turn.trans turn) made (beside.current.trans current)
      exact ⟨drawn.frames.trans (beside.frames.trans opened.frames),
        le_trans opened.nextObject (le_trans beside.nextObject drawn.nextObject), drawn.fitted, drawn.clone,
        drawn.drawn⟩
  · rw [not_or, not_not] at anew
    exact rendered_draw here fitted anew.2

/-- The queue holds the last clones, and those drawn or about to be are some of the others, in their order. -/
private structure DrawnInOrder (made : List Sized) (drawn : List Drawing) (r : VideoRenderer) : Prop where
  sequence : ∃ past, made = past ++ r.frames ∧ (drawn.map Drawing.frame ++ r.turn.clone.toList).Sublist past
  short : r.frames.length ≤ maxQueuedFrames
  numbered : made.Pairwise fun older newer => older.object < newer.object
  below : ∀ clone ∈ made, clone.object < r.nextObject
  fitted : Fitted r.loop
  tools : ∀ drawing ∈ drawn, ∀ tool ∈ drawing.tools, tool.geometry = drawing.frame.geometry

variable {made : List Sized} {drawn : List Drawing} {next : VideoRenderer}

/-- A step that leaves the queue, and keeps the clone of the turn or lets it go. -/
private theorem DrawnInOrder.stays (order : DrawnInOrder made drawn r) (frames : next.frames = r.frames)
    (nextObject : r.nextObject ≤ next.nextObject) (clone : next.turn.clone.toList.Sublist r.turn.clone.toList)
    (fitted : Fitted next.loop) : DrawnInOrder made drawn next := by
  obtain ⟨past, split, sublist⟩ := order.sequence
  exact ⟨⟨past, frames ▸ split, (clone.append_left _).trans sublist⟩, frames ▸ order.short, order.numbered,
    fun clone member => lt_of_lt_of_le (order.below clone member) nextObject, fitted, order.tools⟩

private theorem drawnInOrder_submit (order : DrawnInOrder made drawn r) (fine : r.usedNull = false)
    (geometry : Geometry) (cloned : Bool) :
    DrawnInOrder (made ++ (submitted r (.submit geometry cloned)).toList) drawn (r.submit geometry cloned).1 := by
  cases cloned with
  | false => exact (List.append_nil made).symm ▸ order
  | true =>
    obtain ⟨past, split, sublist⟩ := order.sequence
    have short := order.short
    have clone : submitted r (.submit geometry true) = some ⟨r.nextObject, geometry⟩ := if_neg (by simp [fine])
    rw [clone, Option.toList_some]
    refine ⟨⟨past ++ r.frames.take (r.frames.length + 1 - maxQueuedFrames), ?_,
        sublist.trans (List.sublist_append_left ..)⟩,
      ?_, ?_, fun clone member => ?_, order.fitted, order.tools⟩
    · simp only [VideoRenderer.submit, Bool.not_true, Bool.false_eq_true, if_false]
      rw [split, List.append_assoc, List.append_assoc, ← List.append_assoc (List.take _ _), List.take_append_drop]
    · simp only [VideoRenderer.submit, Bool.not_true, Bool.false_eq_true, if_false, List.length_append,
        List.length_drop, List.length_singleton]
      rw [maxQueuedFrames] at *
      omega
    · exact List.pairwise_append.mpr ⟨order.numbered, List.pairwise_singleton _ _, fun older member newer last => by
        rw [List.mem_singleton.mp last]
        exact order.below older member⟩
    · rcases List.mem_append.mp member with older | last
      · exact Nat.lt_succ_of_lt (order.below clone older)
      · rw [List.mem_singleton.mp last]
        exact Nat.lt_succ_self _

private theorem drawnInOrder_take (order : DrawnInOrder made drawn r) (waiting : r.turn = .waiting) :
    DrawnInOrder made drawn { r with frames := r.frames.tail, turn := .took r.frames.head? } := by
  obtain ⟨past, split, sublist⟩ := order.sequence
  rw [waiting] at sublist
  refine ⟨?_, ?_, order.numbered, order.below, order.fitted, order.tools⟩
  · cases queue : r.frames with
    | nil => exact ⟨past, by rw [split, queue]; rfl, sublist⟩
    | cons frame frames =>
      refine ⟨past ++ [frame], by rw [split, queue, List.append_cons]; rfl, ?_⟩
      change (drawn.map Drawing.frame ++ [frame]).Sublist _
      have none : RenderTurn.waiting.clone = none := rfl
      rw [none, Option.toList_none, List.append_nil] at sublist
      exact sublist.append_right [frame]
  · have fewer := order.short
    rw [List.length_tail]
    omega

private theorem drawnInOrder_render {frame : Sized} (order : DrawnInOrder made drawn r) (here : r.turn = .drawing frame)
    (reply : SdlReply) :
    DrawnInOrder made (drawn ++ (r.render frame reply).2.drawn.toList) (r.render frame reply).1 := by
  have rendered := rendered_render here order.fitted reply
  obtain ⟨past, split, sublist⟩ := order.sequence
  rw [here] at sublist
  refine ⟨⟨past, rendered.frames ▸ split, ?_⟩, rendered.frames ▸ order.short, order.numbered,
    fun clone member => lt_of_lt_of_le (order.below clone member) rendered.nextObject, rendered.fitted, ?_⟩
  · rw [List.map_append, List.append_assoc]
    exact (rendered.clone.append_left _).trans sublist
  · intro other member
    rcases List.mem_append.mp member with earlier | last
    · exact order.tools other earlier
    · obtain ⟨same, fits⟩ := rendered.drawn other (Option.mem_toList.mp last)
      exact same ▸ fits

/-- When the thread is joined, what is queued is never drawn. -/
private theorem drawnInOrder_join (order : DrawnInOrder made drawn r) :
    DrawnInOrder made drawn { r with turn := .idle, frames := [] } := by
  obtain ⟨past, split, sublist⟩ := order.sequence
  refine ⟨⟨past ++ r.frames, by rw [split, List.append_nil], ?_⟩, Nat.zero_le _, order.numbered, order.below,
    order.fitted, order.tools⟩
  have nothing : RenderTurn.idle.clone.toList = [] := rfl
  rw [nothing, List.append_nil]
  exact (List.sublist_append_left _ _).trans (sublist.trans (List.sublist_append_left _ _))

/-- A step other than a submission. -/
private theorem drawnInOrder_other (order : DrawnInOrder made drawn r) (event : RendererEvent)
    (other : ∀ geometry cloned, event ≠ .submit geometry cloned) :
    DrawnInOrder made (drawn ++ (r.step event).2.drawn.toList) (r.step event).1 := by
  have still : DrawnInOrder made (drawn ++ []) r := (List.append_nil drawn).symm ▸ order
  cases event with
  | submit geometry cloned => exact absurd rfl (other geometry cloned)
  | start =>
    rw [VideoRenderer.step]
    split_ifs
    · exact still.stays rfl le_rfl (List.nil_sublist _) order.fitted
    · exact still
  | init initialized =>
    by_cases starting : r.turn = .starting
    · rw [VideoRenderer.step, if_pos starting]
      cases initialized <;> exact still.stays rfl le_rfl (List.nil_sublist _) order.fitted
    · rw [VideoRenderer.step, if_neg starting]
      exact still
  | test =>
    rw [VideoRenderer.step]
    split_ifs
    · exact still.stays rfl le_rfl (List.nil_sublist _) fun tool member => by simp [VideoRenderer.leave] at member
    · exact still.stays rfl le_rfl (List.nil_sublist _) order.fitted
    · exact still
  | take =>
    rw [VideoRenderer.step]
    split_ifs with waiting
    · exact drawnInOrder_take still waiting
    · exact still
  | pollEvents quit =>
    rw [VideoRenderer.step]
    split
    next frame took =>
      refine still.stays rfl le_rfl ?_ order.fitted
      rw [took]
      cases frame <;> exact List.Sublist.refl _
    next => exact still
  | render reply =>
    rw [VideoRenderer.step]
    split
    next frame here => exact drawnInOrder_render order here reply
    next => exact still
  | stop => exact still.stays rfl le_rfl (List.Sublist.refl _) order.fitted
  | join =>
    rw [VideoRenderer.step]
    split_ifs
    · exact drawnInOrder_join still
    · exact still

private theorem drawnInOrder_step (order : DrawnInOrder made drawn r) (event : RendererEvent) :
    DrawnInOrder (made ++ (submitted r event).toList) (drawn ++ (rendererMachine.step r event).2.drawn.toList)
      (rendererMachine.step r event).1 := by
  rw [rendererMachine_step]
  split_ifs with used
  · have nothing : submitted r event = none := by
      cases event with
      | submit geometry cloned => cases cloned <;> simp [submitted, used]
      | _ => rfl
    rw [nothing, Option.toList_none, List.append_nil]
    exact (List.append_nil drawn).symm ▸ order
  · cases event with
    | submit geometry cloned =>
      have none : (r.submit geometry cloned).2.drawn = none := by
        cases cloned <;> rfl
      rw [VideoRenderer.step, none, Option.toList_none, List.append_nil]
      exact drawnInOrder_submit order (Bool.eq_false_iff.mpr used) geometry cloned
    | start | init | test | take | pollEvents | render | stop | join =>
      exact (List.append_nil made).symm ▸ drawnInOrder_other order _ (by simp)

private theorem drawnInOrder_run (events : List RendererEvent) :
    DrawnInOrder (submissions {} events) (drawings {} events) (rendererMachine.final {} events) := by
  induction events using List.reverseRecOn with
  | nil => exact ⟨⟨[], rfl, .slnil⟩, Nat.zero_le _, List.Pairwise.nil, by simp [submissions, Transducer.marks],
      fun tool member => by simp at member, by simp [drawings]⟩
  | append_singleton events event ih =>
    have shown : drawings {} (events ++ [event]) =
        drawings {} events ++ (rendererMachine.step (rendererMachine.final {} events) event).2.drawn.toList := by
      rw [drawings, Transducer.outputs_concat, List.filterMap_append, List.filterMap_cons, List.filterMap_nil]
      cases (rendererMachine.step (rendererMachine.final {} events) event).2.drawn <;> simp [drawings]
    rw [submissions, Transducer.marks_concat, shown, Transducer.final_append]
    exact drawnInOrder_step ih event

/-- In every run the pictures are drawn in the order of their submission, each at most once and with tools of its
own geometry only; and when one is taken off the queue, at most two newer ones have been submitted. -/
theorem drawn_in_order (events : List RendererEvent) :
    ((drawings {} events).map Drawing.frame).Sublist (submissions {} events) ∧
      (submissions {} events).Pairwise (fun older newer => older.object < newer.object) ∧
      (∀ drawing ∈ drawings {} events, ∀ tool ∈ drawing.tools, tool.geometry = drawing.frame.geometry) ∧
      ∀ before after frame, events = before ++ .take :: after → (rendererMachine.final {} before).turn = .waiting →
        (rendererMachine.final {} before).frames.head? = some frame →
        ∃ older newer, submissions {} before = older ++ frame :: newer ∧ newer.length ≤ 2 := by
  have order := drawnInOrder_run events
  refine ⟨?_, order.numbered, order.tools, fun before after frame _ _ first => ?_⟩
  · obtain ⟨past, split, sublist⟩ := order.sequence
    rw [split]
    exact (List.sublist_append_left _ _).trans (sublist.trans (List.sublist_append_left _ _))
  · have earlier := drawnInOrder_run before
    obtain ⟨past, split, -⟩ := earlier.sequence
    obtain ⟨rest, queue⟩ := List.head?_eq_some_iff.mp first
    refine ⟨past, rest, by rw [split, queue], ?_⟩
    have short := earlier.short
    rw [queue, List.length_cons, maxQueuedFrames] at short
    omega

/-- Of four pictures the first one goes, and the second one is drawn. -/
example :
    let events : List RendererEvent := List.replicate 4 (.submit ⟨640, 360, 0⟩ true) ++ [.start, .init true, .test,
      .take, .pollEvents false, .render ⟨true, true, true, true, true⟩, .stop, .test, .join]
    (drawings {} events).map (fun drawing => drawing.frame.object) = [1] := by
  decide +kernel

end WeakNetVideo
