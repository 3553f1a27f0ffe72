import WeakNetVideo.Model.VideoRenderer

/-! # The parts of a turn of the renderer

A turn opens the window, makes the three tools anew and draws. Its parts leave the clones, and say what has become of
the window, the tools and the null pointers.
-/

namespace WeakNetVideo

/-- The clone that the thread has taken. -/
def RenderTurn.clone : RenderTurn → Option Sized
  | .took frame => frame
  | .drawing frame => some frame
  | _ => none

namespace VideoRenderer

variable {r : VideoRenderer}

/-! ## Requests -/

@[simp] theorem frames_make (r : VideoRenderer) (made : Bool) : (r.make made).1.frames = r.frames := by
  cases made <;> rfl

@[simp] theorem turn_make (r : VideoRenderer) (made : Bool) : (r.make made).1.turn = r.turn := by
  cases made <;> rfl

@[simp] theorem loop_make (r : VideoRenderer) (made : Bool) : (r.make made).1.loop = r.loop := by
  cases made <;> rfl

@[simp] theorem usedNull_make (r : VideoRenderer) (made : Bool) : (r.make made).1.usedNull = r.usedNull := by
  cases made <;> rfl

/-! ## The window and the tools -/

@[simp] theorem nextObject_make (r : VideoRenderer) (made : Bool) :
    r.nextObject ≤ (r.make made).1.nextObject := by
  cases made with
  | true => exact Nat.le_succ _
  | false => exact le_rfl

/-- A part of a turn that leaves the clones. -/
structure Beside (before after : VideoRenderer) : Prop where
  turn : after.turn = before.turn
  frames : after.frames = before.frames
  nextObject : before.nextObject ≤ after.nextObject
  current : after.loop.current = before.loop.current

theorem beside_openWindow (r : VideoRenderer) (reply : SdlReply) : Beside r (r.openWindow reply).1 := by
  rw [VideoRenderer.openWindow]
  cases r.loop.window with
  | some object => exact ⟨rfl, rfl, le_rfl, rfl⟩
  | none =>
    cases reply.window with
    | false => exact ⟨rfl, rfl, le_rfl, rfl⟩
    | true =>
      have made := nextObject_make (r.make true).1 reply.renderer
      have loop := congrArg RenderLoop.current (loop_make (r.make true).1 reply.renderer)
      exact ⟨turn_make (r.make true).1 reply.renderer, frames_make (r.make true).1 reply.renderer,
        le_trans (nextObject_make r true) made, loop⟩

/-- The three tools are made for another geometry. -/
def remade (r : VideoRenderer) (reply : SdlReply) (geometry : Geometry) : VideoRenderer :=
  (((r.makeTexture reply.texture geometry).1.makeSws reply.sws geometry).1.makeYuvFrame reply.yuvFrame geometry).1

/-- What comes of the request for the three tools. -/
structure Remade (reply : SdlReply) (before after : VideoRenderer) : Prop where
  beside : Beside before after
  window : after.loop.window = before.loop.window
  renderer : after.loop.renderer = before.loop.renderer
  usedNull : after.usedNull = (before.usedNull || !reply.yuvFrame)
  sws : after.loop.sws = none ↔ reply.sws = false
  yuvFrame : after.loop.yuvFrame = none ↔ reply.yuvFrame = false

private theorem make_none (r : VideoRenderer) (made : Bool) : (r.make made).2.1 = none ↔ made = false := by
  cases made <;> simp [VideoRenderer.make]

theorem remade_spec (r : VideoRenderer) (reply : SdlReply) (geometry : Geometry) :
    Remade reply r (remade r reply geometry) := by
  have texture := nextObject_make r reply.texture
  have sws := nextObject_make (r.makeTexture reply.texture geometry).1 reply.sws
  have yuvFrame := nextObject_make ((r.makeTexture reply.texture geometry).1.makeSws reply.sws geometry).1
    reply.yuvFrame
  refine ⟨⟨?_, ?_, le_trans texture (le_trans sws yuvFrame), ?_⟩, ?_, ?_, ?_, ?_, ?_⟩ <;>
    simp [remade, VideoRenderer.makeTexture, VideoRenderer.makeSws, VideoRenderer.makeYuvFrame, make_none]

/-- Opening a window uses no null pointer, and fails only where there is none. -/
theorem usedNull_openWindow (r : VideoRenderer) (reply : SdlReply) :
    (r.openWindow reply).1.usedNull = r.usedNull := by
  rw [VideoRenderer.openWindow]
  cases r.loop.window with
  | some object => rfl
  | none =>
    cases reply.window with
    | false => rfl
    | true => exact usedNull_make (r.make true).1 reply.renderer

theorem openWindow_closed (windowed : r.loop.window = none ↔ r.loop.renderer = none) (reply : SdlReply) :
    ((r.openWindow reply).1.loop.window.isNone ∨ (r.openWindow reply).1.loop.renderer.isNone) ↔
      r.loop.window = none ∧ ¬(reply.window = true ∧ reply.renderer = true) := by
  rw [VideoRenderer.openWindow]
  cases window : r.loop.window with
  | some object =>
    have renderer : r.loop.renderer ≠ none := fun none => by simp [windowed.mpr none] at window
    simp [window, renderer]
  | none =>
    cases opens : reply.window with
    | false => simp [VideoRenderer.make]
    | true => cases renders : reply.renderer <;> simp [VideoRenderer.make]

/-! ## A picture -/

/-- A turn draws, or uses a null pointer. -/
theorem draw_cases (r : VideoRenderer) (frame : Sized) :
    (∃ yuvFrame sws, r.loop.yuvFrame = some yuvFrame ∧ r.loop.sws = some sws ∧
      r.draw frame = ({ r with turn := .top },
        { log := .used frame.object :: uses r.loop.tools ++ [.released frame.object]
          drawn := r.loop.texture.map fun texture => ⟨frame, texture, sws, yuvFrame⟩ })) ∨
    ((r.loop.yuvFrame = none ∨ r.loop.sws = none) ∧
      r.draw frame = ({ r with usedNull := true }, { log := uses (objects r.loop.yuvFrame.toList) })) := by
  rw [VideoRenderer.draw]
  cases yuvFrame : r.loop.yuvFrame with
  | none => exact .inr ⟨.inl rfl, rfl⟩
  | some yuvFrame =>
    cases sws : r.loop.sws with
    | none => exact .inr ⟨.inr rfl, rfl⟩
    | some sws => exact .inl ⟨_, _, rfl, rfl, rfl⟩

end VideoRenderer

@[simp] theorem rendererMachine_step (r : VideoRenderer) (event : RendererEvent) :
    rendererMachine.step r event = if r.usedNull then (r, {}) else r.step event := rfl

end WeakNetVideo
