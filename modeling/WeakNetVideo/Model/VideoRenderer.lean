import WeakNetVideo.Library.Ledger
import WeakNetVideo.Library.Transducer

/-! # The video renderer

The decoder submits pictures, and a thread of the renderer's own draws them. Between them is a queue of three
clones; when it is full the oldest one goes. Clones, window, texture, scaler and buffer are objects of the media
libraries that the renderer makes and frees by hand; two of them it uses without a look at whether they were made.
The turn of the thread is cut where it lets go of the lock.
-/

namespace WeakNetVideo

/-- `kMaxQueuedFrames`. -/
def maxQueuedFrames : ℕ := 3

/-- The size and the pixel format of a picture. -/
structure Geometry where
  width : ℤ := 0
  height : ℤ := 0
  format : ℤ := -1
deriving DecidableEq, Repr

/-- An object that is made for pictures of one geometry: a clone, or what a picture is drawn with. -/
structure Sized where
  object : ℕ
  geometry : Geometry
deriving DecidableEq, Repr

/-- The local variables of `render_loop` that hold objects, and the geometry they were last made for. -/
structure RenderLoop where
  window : Option ℕ := none
  renderer : Option ℕ := none
  texture : Option Sized := none
  sws : Option Sized := none
  yuvFrame : Option Sized := none
  current : Geometry := {}
deriving DecidableEq, Repr

/-- Where the thread stands: there is none, before `SDL_Init`, at the test of the loop, before the queue, behind it
with or without a clone, or with a clone to draw; and behind its loop. -/
inductive RenderTurn where
  | idle
  | starting
  | top
  | waiting
  | took (frame : Option Sized)
  | drawing (frame : Sized)
  | ended
deriving DecidableEq, Repr

/-- The members of `VideoRenderer`, its thread, the number of the next object that is made, and whether a null pointer
has been used. -/
structure VideoRenderer where
  stopping : Bool := false
  frames : List Sized := []
  turn : RenderTurn := .idle
  loop : RenderLoop := {}
  nextObject : ℕ := 0
  usedNull : Bool := false
deriving DecidableEq, Repr

/-- Which objects the media libraries make when they are asked to. The memory of the buffer's picture is taken to be
there; the code does not look at the result of `av_frame_get_buffer`. -/
structure SdlReply where
  window : Bool
  renderer : Bool
  texture : Bool
  sws : Bool
  yuvFrame : Bool
deriving DecidableEq, Repr

/-- The calls of other threads, and the parts of a turn. -/
inductive RendererEvent where
  | submit (geometry : Geometry) (cloned : Bool)
  | start
  | init (initialized : Bool)
  | test
  | take
  | pollEvents (quit : Bool)
  | render (reply : SdlReply)
  | stop
  | join
deriving DecidableEq, Repr

/-- A clone as it is drawn, with what it is drawn with. -/
structure Drawing where
  frame : Sized
  texture : Sized
  sws : Sized
  yuvFrame : Sized
deriving DecidableEq, Repr

/-- What a step shows: the entries of the ledger, and what it draws. -/
structure RendererShown where
  log : List LedgerEntry := []
  drawn : Option Drawing := none
deriving DecidableEq, Repr

/-- The entries of the calls that free objects, and of those that use them. -/
def releases (objects : List ℕ) : List LedgerEntry := objects.map .released
def uses (objects : List ℕ) : List LedgerEntry := objects.map .used

/-- The objects of some clones, or of what a picture is drawn with. -/
def objects (sized : List Sized) : List ℕ := sized.map Sized.object

/-- The objects that a picture is drawn with. -/
def RenderLoop.tools (loop : RenderLoop) : List ℕ :=
  objects loop.yuvFrame.toList ++ objects loop.sws.toList ++ objects loop.texture.toList ++ loop.renderer.toList

namespace VideoRenderer

/-- `submit`; the clone may fail. -/
def submit (r : VideoRenderer) (geometry : Geometry) (cloned : Bool) : VideoRenderer × RendererShown :=
  if !cloned then (r, {})
  else
    let full := r.frames.length + 1 - maxQueuedFrames
    ({ r with
        frames := r.frames.drop full ++ [⟨r.nextObject, geometry⟩]
        nextObject := r.nextObject + 1 },
      { log := .made r.nextObject :: releases (objects (r.frames.take full)) })

/-- An object that is asked for gets the next number when it is made. -/
def make (r : VideoRenderer) (made : Bool) : VideoRenderer × Option ℕ × List LedgerEntry :=
  if made then ({ r with nextObject := r.nextObject + 1 }, some r.nextObject, [.made r.nextObject]) else (r, none, [])

/-- `SDL_CreateWindow` and `SDL_CreateRenderer`, or `SDL_SetWindowSize`. -/
def openWindow (r : VideoRenderer) (reply : SdlReply) : VideoRenderer × List LedgerEntry :=
  match r.loop.window with
  | some window => (r, [.used window])
  | none =>
    match r.make reply.window with
    | (r, none, log) => ({ r with loop := { r.loop with renderer := none } }, log)
    | (r, some window, log) =>
      let (r, renderer, more) := r.make reply.renderer
      ({ r with loop := { r.loop with window := some window, renderer := renderer } }, log ++ .used window :: more)

/-- A texture of the geometry, in place of the one before. -/
def makeTexture (r : VideoRenderer) (made : Bool) (geometry : Geometry) : VideoRenderer × List LedgerEntry :=
  let freed := releases (objects r.loop.texture.toList)
  let (r, texture, log) := r.make made
  ({ r with loop := { r.loop with texture := texture.map (⟨·, geometry⟩) } }, freed ++ log)

/-- `sws_freeContext` and `sws_getContext`. -/
def makeSws (r : VideoRenderer) (made : Bool) (geometry : Geometry) : VideoRenderer × List LedgerEntry :=
  let freed := releases (objects r.loop.sws.toList)
  let (r, sws, log) := r.make made
  ({ r with loop := { r.loop with sws := sws.map (⟨·, geometry⟩) } }, freed ++ log)

/-- `av_frame_free` and `av_frame_alloc` of the buffer. Its fields are set at once, without a test. -/
def makeYuvFrame (r : VideoRenderer) (made : Bool) (geometry : Geometry) : VideoRenderer × List LedgerEntry :=
  let freed := releases (objects r.loop.yuvFrame.toList)
  let (r, yuvFrame, log) := r.make made
  ({ r with
      loop := { r.loop with yuvFrame := yuvFrame.map (⟨·, geometry⟩) }
      usedNull := r.usedNull || !made },
    freed ++ log)

/-- What comes behind the loop: everything that it holds is freed. -/
def leave (r : VideoRenderer) : VideoRenderer × List LedgerEntry :=
  ({ r with turn := .ended, loop := {} },
    releases (objects r.loop.yuvFrame.toList ++ objects r.loop.sws.toList ++ objects r.loop.texture.toList ++
      r.loop.renderer.toList ++ r.loop.window.toList))

/-- The clone is scaled into the buffer, drawn and freed. Buffer and scaler are not tested; the calls of SDL refuse a
texture that could not be made, and nothing is drawn. -/
def draw (r : VideoRenderer) (frame : Sized) : VideoRenderer × RendererShown :=
  match r.loop.yuvFrame, r.loop.sws with
  | some yuvFrame, some sws =>
    ({ r with turn := .top },
      { log := .used frame.object :: uses r.loop.tools ++ [.released frame.object]
        drawn := r.loop.texture.map fun texture => ⟨frame, texture, sws, yuvFrame⟩ })
  | yuvFrame, _ => ({ r with usedNull := true }, { log := uses (objects yuvFrame.toList) })

/-- A turn with a clone: for another geometry than the last one, everything is made anew first. The loop ends when
there is no window to draw in. -/
def render (r : VideoRenderer) (frame : Sized) (reply : SdlReply) : VideoRenderer × RendererShown :=
  if r.loop.window.isNone ∨ r.loop.current ≠ frame.geometry then
    let (r, opened) := { r with loop := { r.loop with current := frame.geometry } }.openWindow reply
    if r.loop.window.isNone ∨ r.loop.renderer.isNone then
      let (r, left) := r.leave
      (r, { log := opened ++ .released frame.object :: left })
    else
      let (r, texture) := r.makeTexture reply.texture frame.geometry
      let (r, sws) := r.makeSws reply.sws frame.geometry
      let (r, yuvFrame) := r.makeYuvFrame reply.yuvFrame frame.geometry
      if r.usedNull then (r, { log := opened ++ texture ++ sws ++ yuvFrame })
      else
        let (r, shown) := r.draw frame
        (r, { shown with log := opened ++ texture ++ sws ++ yuvFrame ++ shown.log })
  else r.draw frame

/-- One step. A thread is started when there is none, and joined when it has ended. -/
def step (r : VideoRenderer) : RendererEvent → VideoRenderer × RendererShown
  | .submit geometry cloned => r.submit geometry cloned
  | .start => if r.turn = .idle then ({ r with stopping := false, turn := .starting }, {}) else (r, {})
  | .init initialized =>
    if r.turn = .starting then ({ r with turn := if initialized then .top else .ended }, {}) else (r, {})
  | .test =>
    if r.turn = .top then
      if r.stopping then
        let (r, log) := r.leave
        (r, { log := log })
      else ({ r with turn := .waiting }, {})
    else (r, {})
  | .take =>
    if r.turn = .waiting then ({ r with frames := r.frames.tail, turn := .took r.frames.head? }, {}) else (r, {})
  | .pollEvents quit =>
    match r.turn with
    | .took frame =>
      ({ r with
          stopping := r.stopping || quit
          turn := match frame with
            | none => .top
            | some frame => .drawing frame }, {})
    | _ => (r, {})
  | .render reply =>
    match r.turn with
    | .drawing frame => r.render frame reply
    | _ => (r, {})
  | .stop => ({ r with stopping := true }, {})
  | .join =>
    if r.turn = .idle ∨ r.turn = .ended then
      ({ r with turn := .idle, frames := [] }, { log := releases (objects r.frames) })
    else (r, {})

end VideoRenderer

/-- The machine of the renderer. A program that has used a null pointer takes no step any more. -/
def rendererMachine : Transducer VideoRenderer RendererEvent RendererShown :=
  ⟨fun r event => if r.usedNull then (r, {}) else r.step event⟩

end WeakNetVideo
