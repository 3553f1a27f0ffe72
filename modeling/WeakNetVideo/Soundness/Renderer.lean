import Mathlib.Algebra.Order.Group.Multiset
import Mathlib.Tactic.Abel
import WeakNetVideo.Proofs.RendererTurns

/-! # What the renderer makes

Every clone and every other object of the renderer is freed once and used only before, whatever the libraries make
of the requests and wherever the thread is stopped; a null pointer is used where the scaler or the buffer could not
be made.
-/

namespace WeakNetVideo

open VideoRenderer

variable {r : VideoRenderer} {log : List LedgerEntry} {rest : Multiset ℕ} {events : List RendererEvent}

/-! ## What is held -/

/-- The objects that the loop holds. -/
def RenderLoop.held (loop : RenderLoop) : Multiset ℕ :=
  objects loop.texture.toList + (objects loop.sws.toList + (objects loop.yuvFrame.toList +
    ((loop.renderer.toList : Multiset ℕ) + (loop.window.toList : Multiset ℕ))))

/-- The objects that the renderer holds. -/
def VideoRenderer.held (r : VideoRenderer) : Multiset ℕ :=
  objects r.frames + (objects r.turn.clone.toList + r.loop.held)

/-- What a run writes to the ledger. -/
def ledgerOf (r : VideoRenderer) (events : List RendererEvent) : List LedgerEntry :=
  (rendererMachine.outputs r events).flatMap RendererShown.log

/-- A thread that is not in its loop has no objects there, there is no renderer without a window, and with a window
there is a scaler and a buffer as long as no null pointer has been used; where one was, a turn stopped. -/
structure VideoRenderer.LoopKept (r : VideoRenderer) : Prop where
  outside : r.turn = .idle ∨ r.turn = .starting ∨ r.turn = .ended → r.loop = {}
  windowed : r.loop.window = none ↔ r.loop.renderer = none
  equipped : r.usedNull = false → r.loop.window ≠ none → r.loop.sws ≠ none ∧ r.loop.yuvFrame ≠ none
  stopped : r.usedNull = true → ∃ frame, r.turn = .drawing frame

/-- The ledger goes on to what is held then. -/
private def Books (log : List LedgerEntry) (r : VideoRenderer) : Prop := ObjectLedger r.nextObject log r.held

@[simp] private theorem objects_sized (made : Option ℕ) (geometry : Geometry) :
    objects (made.map fun object => Sized.mk object geometry).toList = made.toList := by
  cases made <;> rfl

private theorem ledger_make (ledger : ObjectLedger r.nextObject log rest) (made : Bool) :
    ObjectLedger (r.make made).1.nextObject (log ++ (r.make made).2.2) ((r.make made).2.1.toList + rest) := by
  cases made with
  | true => exact ledger.make
  | false => simpa [VideoRenderer.make] using ledger

/-- Some objects are freed, and one is made in their place. -/
private theorem ledger_remake {old : List ℕ} (ledger : ObjectLedger r.nextObject log (old + rest)) (made : Bool) :
    ObjectLedger (r.make made).1.nextObject (log ++ (releases old ++ (r.make made).2.2))
      ((r.make made).2.1.toList + rest) := by
  have next := ledger_make ledger.releaseAll made
  rwa [List.append_assoc] at next

private theorem books_makeTexture (books : Books log r) (made : Bool) (geometry : Geometry) :
    Books (log ++ (r.makeTexture made geometry).2) (r.makeTexture made geometry).1 := by
  have split : r.held = objects r.loop.texture.toList + (objects r.frames + (objects r.turn.clone.toList +
      (objects r.loop.sws.toList + (objects r.loop.yuvFrame.toList +
        ((r.loop.renderer.toList : Multiset ℕ) + (r.loop.window.toList : Multiset ℕ)))))) := by
    rw [VideoRenderer.held, RenderLoop.held]
    abel
  rw [Books, split] at books
  apply (congrArg (ObjectLedger _ _) _).mp (ledger_remake books made)
  rw [VideoRenderer.makeTexture, VideoRenderer.held, RenderLoop.held]
  simp only [frames_make, turn_make, loop_make, objects_sized]
  abel

private theorem books_makeSws (books : Books log r) (made : Bool) (geometry : Geometry) :
    Books (log ++ (r.makeSws made geometry).2) (r.makeSws made geometry).1 := by
  have split : r.held = objects r.loop.sws.toList + (objects r.frames + (objects r.turn.clone.toList +
      (objects r.loop.texture.toList + (objects r.loop.yuvFrame.toList +
        ((r.loop.renderer.toList : Multiset ℕ) + (r.loop.window.toList : Multiset ℕ)))))) := by
    rw [VideoRenderer.held, RenderLoop.held]
    abel
  rw [Books, split] at books
  apply (congrArg (ObjectLedger _ _) _).mp (ledger_remake books made)
  rw [VideoRenderer.makeSws, VideoRenderer.held, RenderLoop.held]
  simp only [frames_make, turn_make, loop_make, objects_sized]
  abel

private theorem books_makeYuvFrame (books : Books log r) (made : Bool) (geometry : Geometry) :
    Books (log ++ (r.makeYuvFrame made geometry).2) (r.makeYuvFrame made geometry).1 := by
  have split : r.held = objects r.loop.yuvFrame.toList + (objects r.frames + (objects r.turn.clone.toList +
      (objects r.loop.texture.toList + (objects r.loop.sws.toList +
        ((r.loop.renderer.toList : Multiset ℕ) + (r.loop.window.toList : Multiset ℕ)))))) := by
    rw [VideoRenderer.held, RenderLoop.held]
    abel
  rw [Books, split] at books
  apply (congrArg (ObjectLedger _ _) _).mp (ledger_remake books made)
  rw [VideoRenderer.makeYuvFrame, VideoRenderer.held, RenderLoop.held]
  simp only [frames_make, turn_make, loop_make, objects_sized]
  abel

/-- The window is opened, or used. -/
private theorem books_openWindow (books : Books log r) (windowed : r.loop.window = none → r.loop.renderer = none)
    (reply : SdlReply) : Books (log ++ (r.openWindow reply).2) (r.openWindow reply).1 := by
  rw [VideoRenderer.openWindow]
  cases window : r.loop.window with
  | some object =>
    have member : object ∈ r.held := by
      simp [VideoRenderer.held, RenderLoop.held, window]
    exact books.use member
  | none =>
    have split : r.held = objects r.frames + (objects r.turn.clone.toList + (objects r.loop.texture.toList +
        (objects r.loop.sws.toList + (objects r.loop.yuvFrame.toList + 0)))) := by
      rw [VideoRenderer.held, RenderLoop.held, windowed window, window]
      rfl
    rw [Books, split] at books
    cases opens : reply.window with
    | false =>
      apply (congrArg (ObjectLedger _ _) _).mp (ledger_make books false)
      simp [VideoRenderer.make, VideoRenderer.held, RenderLoop.held, window]
    | true =>
      have opened := (ledger_make books true).use (Multiset.mem_add.mpr (.inl (List.mem_singleton.mpr rfl)))
      rw [List.append_assoc] at opened
      have next := @ledger_make (r.make true).1 _ _ opened reply.renderer
      rw [List.append_assoc] at next
      have made : r.make true = ({ r with nextObject := r.nextObject + 1 }, some r.nextObject, [.made r.nextObject]) :=
        rfl
      simp only [made] at next ⊢
      apply (congrArg (ObjectLedger _ _) _).mp next
      simp only [VideoRenderer.held, RenderLoop.held, frames_make, turn_make, loop_make]
      abel

/-- Behind the loop only the queue is held. -/
private theorem books_leave (ledger : ObjectLedger r.nextObject log (objects r.frames + r.loop.held)) :
    Books (log ++ r.leave.2) r.leave.1 := by
  have split : (objects r.frames : Multiset ℕ) + r.loop.held =
      ((objects r.loop.yuvFrame.toList ++ objects r.loop.sws.toList ++ objects r.loop.texture.toList ++
        r.loop.renderer.toList ++ r.loop.window.toList : List ℕ) : Multiset ℕ) + objects r.frames := by
    simp only [RenderLoop.held, ← Multiset.coe_add]
    abel
  rw [split] at ledger
  apply (congrArg (ObjectLedger _ _) _).mp ledger.releaseAll
  simp [VideoRenderer.leave, VideoRenderer.held, RenderLoop.held, RenderTurn.clone, objects]

/-- A turn that draws holds its clone. -/
private theorem held_drawing {frame : Sized} (here : r.turn = .drawing frame) :
    r.held = frame.object ::ₘ (objects r.frames + r.loop.held) := by
  rw [VideoRenderer.held, here, ← Multiset.singleton_add]
  change _ + (({frame.object} : Multiset ℕ) + _) = _
  abel

/-- The clone is used with the tools, and freed. -/
private theorem books_draw {frame : Sized} (books : Books log r) (here : r.turn = .drawing frame) :
    Books (log ++ (r.draw frame).2.log) (r.draw frame).1 := by
  rcases draw_cases r frame with ⟨yuvFrame, sws, _, _, step⟩ | ⟨_, step⟩
  · rw [Books, held_drawing here] at books
    have tools : ∀ object ∈ r.loop.tools, object ∈ frame.object ::ₘ (objects r.frames + r.loop.held) := by
      intro object member
      simp only [RenderLoop.tools, List.mem_append] at member
      simp only [RenderLoop.held, Multiset.mem_cons, Multiset.mem_add, Multiset.mem_coe]
      tauto
    have drawn := ((books.use (Multiset.mem_cons_self _ _)).useAll tools).release
    have entries : log ++ [.used frame.object] ++ r.loop.tools.map .used ++ [.released frame.object] =
        log ++ (r.draw frame).2.log := by
      simp [step, uses]
    rw [entries, step] at drawn
    rw [step]
    apply (congrArg (ObjectLedger _ _) _).mp drawn
    simp [VideoRenderer.held, RenderTurn.clone, objects]
  · rw [step]
    refine books.useAll fun object member => ?_
    simp only [VideoRenderer.held, RenderLoop.held, Multiset.mem_add, Multiset.mem_coe]
    exact .inr (.inr (.inr (.inr (.inl member))))

/-- A clone that cannot be drawn is freed, and so is everything else. -/
private theorem books_giveUp {frame : Sized} (books : Books log r) (here : r.turn = .drawing frame) :
    Books (log ++ .released frame.object :: r.leave.2) r.leave.1 := by
  rw [Books, held_drawing here] at books
  rw [List.append_cons]
  exact books_leave books.release

private theorem books_render {frame : Sized} (books : Books log r) (here : r.turn = .drawing frame)
    (kept : r.LoopKept) (reply : SdlReply) :
    Books (log ++ (r.render frame reply).2.log) (r.render frame reply).1 := by
  rw [VideoRenderer.render]
  split_ifs with anew
  · have opened := @books_openWindow { r with loop := { r.loop with current := frame.geometry } } log books
      kept.windowed.mp reply
    have turn := (beside_openWindow { r with loop := { r.loop with current := frame.geometry } } reply).turn
    generalize VideoRenderer.openWindow { r with loop := { r.loop with current := frame.geometry } } reply =
      window at opened turn
    have still : window.1.turn = .drawing frame := turn.trans here
    simp only
    split_ifs with closed null
    · have left := books_giveUp opened still
      rw [List.append_assoc] at left
      exact left
    all_goals
      have made := books_makeYuvFrame (books_makeSws (books_makeTexture opened reply.texture frame.geometry)
        reply.sws frame.geometry) reply.yuvFrame frame.geometry
      simp only [List.append_assoc] at made
    · simpa only [List.append_assoc] using made
    · have drawn := books_draw made ((remade_spec window.1 reply frame.geometry).beside.turn.trans still)
      simp only [List.append_assoc] at drawn ⊢
      exact drawn
  · exact books_draw books here

/-- A turn that draws makes its tools anew: for another geometry than the last one, with a window to draw in. -/
def VideoRenderer.Remakes (r : VideoRenderer) (reply : SdlReply) : Prop :=
  ∃ frame, r.turn = .drawing frame ∧ (r.loop.window = none ∨ r.loop.current ≠ frame.geometry) ∧
    (r.loop.window = none → reply.window = true ∧ reply.renderer = true)

private theorem kept_draw {frame : Sized} (here : r.turn = .drawing frame) (fine : r.usedNull = false)
    (windowed : r.loop.window = none ↔ r.loop.renderer = none) : (r.draw frame).1.LoopKept := by
  rcases draw_cases r frame with ⟨yuvFrame, sws, buffer, scaler, step⟩ | ⟨_, step⟩
  · rw [step]
    exact ⟨fun outside => by simp at outside, windowed, fun _ _ => ⟨by simp [scaler], by simp [buffer]⟩,
      fun used => by simp [fine] at used⟩
  · rw [step]
    exact ⟨fun outside => by simp [here] at outside, windowed, fun unused => by simp at unused,
      fun _ => ⟨frame, here⟩⟩

private theorem usedNull_draw (r : VideoRenderer) (frame : Sized) (fine : r.usedNull = false) :
    (r.draw frame).1.usedNull = true ↔ r.loop.sws = none ∨ r.loop.yuvFrame = none := by
  rcases draw_cases r frame with ⟨yuvFrame, sws, buffer, scaler, step⟩ | ⟨missing, step⟩
  · rw [step]
    simp [fine, buffer, scaler]
  · rw [step]
    exact iff_of_true rfl missing.symm

/-- A turn keeps the loop, and uses a null pointer exactly when it makes its tools and is not given the scaler or the
buffer. -/
private theorem kept_render {frame : Sized} (kept : r.LoopKept) (fine : r.usedNull = false)
    (here : r.turn = .drawing frame) (reply : SdlReply) :
    (r.render frame reply).1.LoopKept ∧
      ((r.render frame reply).1.usedNull = true ↔
        r.Remakes reply ∧ (reply.sws = false ∨ reply.yuvFrame = false)) := by
  have remakes : r.Remakes reply ↔ (r.loop.window = none ∨ r.loop.current ≠ frame.geometry) ∧
      (r.loop.window = none → reply.window = true ∧ reply.renderer = true) := by
    constructor
    · rintro ⟨other, same, rest⟩
      obtain rfl := RenderTurn.drawing.inj (here.symm.trans same)
      exact rest
    · exact fun rest => ⟨frame, here, rest⟩
  rw [VideoRenderer.render, remakes]
  split_ifs with anew
  · have turn := (beside_openWindow { r with loop := { r.loop with current := frame.geometry } } reply).turn
    have null := usedNull_openWindow { r with loop := { r.loop with current := frame.geometry } } reply
    have shut := @openWindow_closed { r with loop := { r.loop with current := frame.geometry } } kept.windowed reply
    generalize VideoRenderer.openWindow { r with loop := { r.loop with current := frame.geometry } } reply =
      window at turn null shut
    simp only [Option.isNone_iff_eq_none] at anew shut ⊢
    split_ifs with closed failed
    · have unused : ¬window.1.leave.1.usedNull = true := by simp [VideoRenderer.leave, null, fine]
      refine ⟨⟨fun _ => rfl, Iff.rfl, fun _ opened => absurd rfl opened, fun used => absurd used unused⟩,
        iff_of_false unused ?_⟩
      · exact fun all => (shut.mp closed).2 (all.1.2 (shut.mp closed).1)
    all_goals
      have opens : r.loop.window = none → reply.window = true ∧ reply.renderer = true := fun none =>
        not_not.mp fun refused => closed (shut.mpr ⟨none, refused⟩)
      have spec := remade_spec window.1 reply frame.geometry
      have same : (remade window.1 reply frame.geometry).loop.window = none ↔
          (remade window.1 reply frame.geometry).loop.renderer = none := by
        rw [spec.window, spec.renderer]
        exact iff_of_false (fun none => closed (.inl none)) fun none => closed (.inr none)
      have turn' := spec.beside.turn.trans (turn.trans here)
      have usedNull := spec.usedNull
      rw [null, fine, Bool.false_or] at usedNull
    · have refused : reply.yuvFrame = false := by
        change (remade window.1 reply frame.geometry).usedNull = true at failed
        rw [usedNull] at failed
        simpa using failed
      have outside : ¬((remade window.1 reply frame.geometry).turn = .idle ∨
          (remade window.1 reply frame.geometry).turn = .starting ∨
          (remade window.1 reply frame.geometry).turn = .ended) := by simp [turn']
      exact ⟨⟨fun out => absurd out outside, same, fun unused => absurd (failed.symm.trans unused) (by simp),
        fun _ => ⟨frame, turn'⟩⟩, iff_of_true failed ⟨⟨anew, opens⟩, .inr refused⟩⟩
    · have unused := Bool.eq_false_of_not_eq_true failed
      refine ⟨kept_draw turn' unused same, (usedNull_draw _ frame unused).trans ?_⟩
      rw [and_iff_right (⟨anew, opens⟩ : _ ∧ _)]
      exact or_congr spec.sws spec.yuvFrame
  · refine ⟨kept_draw here fine kept.windowed, iff_of_false (fun used => ?_) fun all => anew ?_⟩
    · rw [not_or, Option.isNone_iff_eq_none] at anew
      obtain ⟨scaler, buffer⟩ := kept.equipped fine anew.1
      exact ((usedNull_draw r frame fine).mp used).elim scaler buffer
    · rw [Option.isNone_iff_eq_none]
      exact all.1.1

/-! ## The ledger of a run -/

private theorem books_submit (books : Books log r) (geometry : Geometry) (cloned : Bool) :
    Books (log ++ (r.submit geometry cloned).2.log) (r.submit geometry cloned).1 := by
  cases cloned with
  | false => exact (List.append_nil log).symm ▸ books
  | true =>
    have split : r.nextObject ::ₘ r.held =
        objects (r.frames.take (r.frames.length + 1 - maxQueuedFrames)) +
          (objects (r.frames.drop (r.frames.length + 1 - maxQueuedFrames) ++ [⟨r.nextObject, geometry⟩]) +
            (objects r.turn.clone.toList + r.loop.held)) := by
      have whole : (objects r.frames : Multiset ℕ) =
          objects (r.frames.take (r.frames.length + 1 - maxQueuedFrames)) +
            objects (r.frames.drop (r.frames.length + 1 - maxQueuedFrames)) := by
        rw [Multiset.coe_add, objects, objects, objects, ← List.map_append, List.take_append_drop]
      have last : (objects (r.frames.drop (r.frames.length + 1 - maxQueuedFrames) ++ [⟨r.nextObject, geometry⟩]) :
          Multiset ℕ) = objects (r.frames.drop (r.frames.length + 1 - maxQueuedFrames)) + {r.nextObject} := by
        rw [objects, List.map_append]
        exact (Multiset.coe_add _ _).symm
      rw [VideoRenderer.held, whole, last, ← Multiset.singleton_add]
      abel
    have next := books.make
    rw [split] at next
    have freed := next.releaseAll
    rw [List.append_assoc] at freed
    exact freed

/-- A step goes on in the ledger. -/
private theorem books_step (books : Books log r) (kept : r.LoopKept) (event : RendererEvent) :
    Books (log ++ (r.step event).2.log) (r.step event).1 := by
  have still : Books (log ++ []) r := (List.append_nil log).symm ▸ books
  cases event with
  | submit geometry cloned => exact books_submit books geometry cloned
  | start =>
    rw [VideoRenderer.step]
    split_ifs with idle
    · apply (congrArg (ObjectLedger _ _) _).mp still
      rw [VideoRenderer.held, idle]
      rfl
    · exact still
  | init initialized =>
    by_cases starting : r.turn = .starting
    · rw [VideoRenderer.step, if_pos starting]
      apply (congrArg (ObjectLedger _ _) _).mp still
      rw [VideoRenderer.held, starting]
      cases initialized <;> rfl
    · rw [VideoRenderer.step, if_neg starting]
      exact still
  | test =>
    rw [VideoRenderer.step]
    split_ifs with top stopping
    · apply books_leave ((congrArg (ObjectLedger _ _) ?_).mp books)
      rw [VideoRenderer.held, top]
      simp [RenderTurn.clone, objects]
    · apply (congrArg (ObjectLedger _ _) _).mp still
      rw [VideoRenderer.held, top]
      rfl
    · exact still
  | take =>
    rw [VideoRenderer.step]
    split_ifs with waiting
    · apply (congrArg (ObjectLedger _ _) _).mp still
      rw [VideoRenderer.held, waiting, VideoRenderer.held]
      cases r.frames with
      | nil => rfl
      | cons frame frames =>
        change (frame.object ::ₘ (objects frames : Multiset ℕ)) + (0 + r.loop.held) =
          (objects frames : Multiset ℕ) + ({frame.object} + r.loop.held)
        rw [← Multiset.singleton_add]
        abel
    · exact still
  | pollEvents quit =>
    rw [VideoRenderer.step]
    split
    next frame took =>
      apply (congrArg (ObjectLedger _ _) _).mp still
      rw [VideoRenderer.held, took]
      cases frame <;> rfl
    next => exact still
  | render reply =>
    rw [VideoRenderer.step]
    split
    next frame here => exact books_render books here kept reply
    next => exact still
  | stop => exact still
  | join =>
    rw [VideoRenderer.step]
    split_ifs with finished
    · have empty : r.loop = {} := kept.outside (finished.imp_right .inr)
      have none : r.turn.clone = none := by
        rcases finished with idle | ended
        · rw [idle]
          rfl
        · rw [ended]
          rfl
      have split : r.held = objects r.frames + 0 := by
        rw [VideoRenderer.held, none, empty]
        rfl
      rw [Books, split] at books
      apply (congrArg (ObjectLedger _ _) _).mp books.releaseAll
      rw [VideoRenderer.held, empty]
      rfl
    · exact still

/-- A step that leaves the loop as it is. -/
private theorem VideoRenderer.LoopKept.stays {next : VideoRenderer} (kept : r.LoopKept) (fine : r.usedNull = false)
    (loop : next.loop = r.loop) (usedNull : next.usedNull = r.usedNull)
    (outside : next.turn = .idle ∨ next.turn = .starting ∨ next.turn = .ended →
      r.turn = .idle ∨ r.turn = .starting ∨ r.turn = .ended) :
    next.LoopKept ∧ next.usedNull = r.usedNull := by
  refine ⟨⟨fun out => loop.trans (kept.outside (outside out)), ?_, ?_, fun used => ?_⟩, usedNull⟩
  · rw [loop]
    exact kept.windowed
  · rw [loop, usedNull]
    exact kept.equipped
  · exact absurd (fine.symm.trans (usedNull.symm.trans used)) (by simp)

/-- A step other than a turn that draws. -/
private theorem kept_other (kept : r.LoopKept) (fine : r.usedNull = false) (event : RendererEvent)
    (other : ∀ reply, event ≠ .render reply) :
    (r.step event).1.LoopKept ∧ (r.step event).1.usedNull = r.usedNull := by
  have still := kept.stays fine rfl rfl id
  cases event with
  | render reply => exact absurd rfl (other reply)
  | submit geometry cloned => cases cloned <;> exact kept.stays fine rfl rfl id
  | stop => exact kept.stays fine rfl rfl id
  | start =>
    rw [VideoRenderer.step]
    split_ifs with idle
    · exact kept.stays fine rfl rfl fun _ => .inl idle
    · exact still
  | init initialized =>
    by_cases starting : r.turn = .starting
    · rw [VideoRenderer.step, if_pos starting]
      exact kept.stays fine rfl rfl fun _ => .inr (.inl starting)
    · rw [VideoRenderer.step, if_neg starting]
      exact still
  | test =>
    rw [VideoRenderer.step]
    split_ifs
    · exact ⟨⟨fun _ => rfl, Iff.rfl, fun _ opened => absurd rfl opened, fun used => absurd used (by
        simp [VideoRenderer.leave, fine])⟩, rfl⟩
    · exact kept.stays fine rfl rfl (by simp)
    · exact still
  | take =>
    rw [VideoRenderer.step]
    split_ifs
    · exact kept.stays fine rfl rfl (by simp)
    · exact still
  | pollEvents quit =>
    rw [VideoRenderer.step]
    split
    next frame _ => exact kept.stays fine rfl rfl (by cases frame <;> simp)
    next => exact still
  | join =>
    rw [VideoRenderer.step]
    split_ifs with finished
    · exact kept.stays fine rfl rfl fun _ => finished.imp_right .inr
    · exact still

/-- A step keeps the loop, and uses a null pointer only in a turn that makes the tools. -/
private theorem loopKept_step (kept : r.LoopKept) (fine : r.usedNull = false) (event : RendererEvent) :
    (r.step event).1.LoopKept ∧ ((r.step event).1.usedNull = true ↔
      ∃ reply, event = .render reply ∧ r.Remakes reply ∧ (reply.sws = false ∨ reply.yuvFrame = false)) := by
  by_cases renders : ∃ reply, event = .render reply
  · obtain ⟨reply, rfl⟩ := renders
    have only : (∃ other, RendererEvent.render reply = .render other ∧ r.Remakes other ∧
        (other.sws = false ∨ other.yuvFrame = false)) ↔
          r.Remakes reply ∧ (reply.sws = false ∨ reply.yuvFrame = false) := by
      simp only [RendererEvent.render.injEq, exists_eq_left']
    rw [only, VideoRenderer.step]
    split
    next frame here => exact kept_render kept fine here reply
    next others =>
      refine ⟨kept, iff_of_false (by simp [fine]) ?_⟩
      rintro ⟨⟨frame, here, _⟩, _⟩
      exact others frame here
  · obtain ⟨kept', same⟩ := kept_other kept fine event (not_exists.mp renders)
    refine ⟨kept', iff_of_false (by simp [same, fine]) ?_⟩
    rintro ⟨reply, here, _⟩
    exact renders ⟨reply, here⟩

theorem ledgerOf_concat (r : VideoRenderer) (events : List RendererEvent) (event : RendererEvent) :
    ledgerOf r (events ++ [event]) =
      ledgerOf r events ++ (rendererMachine.step (rendererMachine.final r events) event).2.log := by
  rw [ledgerOf, Transducer.outputs_concat, List.flatMap_append, List.flatMap_singleton]
  rfl

private theorem books_run (events : List RendererEvent) :
    Books (ledgerOf {} events) (rendererMachine.final {} events) ∧ (rendererMachine.final {} events).LoopKept := by
  induction events using List.reverseRecOn with
  | nil => exact ⟨.empty, fun _ => rfl, Iff.rfl, fun _ opened => absurd rfl opened, fun used => by simp at used⟩
  | append_singleton events event ih =>
    rw [ledgerOf_concat, Transducer.final_append, Transducer.final_cons, Transducer.final_nil, rendererMachine_step]
    split_ifs with used
    · exact ⟨(List.append_nil (ledgerOf {} events)).symm ▸ ih.1, ih.2⟩
    · exact ⟨books_step ih.1 ih.2 event, (loopKept_step ih.2 (Bool.eq_false_of_not_eq_true used) event).1⟩

/-- A null pointer is used in a run exactly when a turn makes its tools and is not given the scaler or the buffer. -/
private theorem usedNull_run (events : List RendererEvent) :
    (rendererMachine.final {} events).usedNull = true ↔
      ∃ before reply after, events = before ++ .render reply :: after ∧
        (rendererMachine.final {} before).Remakes reply ∧ (reply.sws = false ∨ reply.yuvFrame = false) := by
  induction events using List.reverseRecOn with
  | nil => exact iff_of_false (by simp) (by simp)
  | append_singleton events event ih =>
    have cut : (∃ before reply after, events ++ [event] = before ++ .render reply :: after ∧
        (rendererMachine.final {} before).Remakes reply ∧ (reply.sws = false ∨ reply.yuvFrame = false)) ↔
          (rendererMachine.final {} events).usedNull = true ∨ ∃ reply, event = .render reply ∧
            (rendererMachine.final {} events).Remakes reply ∧ (reply.sws = false ∨ reply.yuvFrame = false) := by
      rw [ih]
      constructor
      · rintro ⟨before, reply, after, split, rest⟩
        rcases List.eq_nil_or_concat after with rfl | ⟨after, final, rfl⟩
        · obtain ⟨rfl, same⟩ := List.append_inj' split rfl
          exact .inr ⟨reply, List.singleton_inj.mp same, rest⟩
        · rw [List.concat_eq_append, ← List.cons_append, ← List.append_assoc] at split
          exact .inl ⟨before, reply, after, (List.append_inj' split rfl).1, rest⟩
      · rintro (⟨before, reply, after, rfl, rest⟩ | ⟨reply, rfl, rest⟩)
        · exact ⟨before, reply, after ++ [event], by simp, rest⟩
        · exact ⟨events, reply, [], rfl, rest⟩
    rw [cut, Transducer.final_append, Transducer.final_cons, Transducer.final_nil, rendererMachine_step]
    split_ifs with used
    · exact iff_of_true used (.inl used)
    · rw [(loopKept_step (books_run events).2 (Bool.eq_false_of_not_eq_true used) event).2, or_iff_right used]

/-- In every run each object is made once, used only while it is held and freed once; at any moment the renderer
holds just what has been made and not freed; when its thread is over and joined, everything has been freed; and a null
pointer is used exactly when a turn makes its tools and is not given the scaler or the buffer. -/
theorem renderer_frees (events : List RendererEvent) :
    Orderly (ledgerOf {} events) ∧
      (∀ object, object ∈ (rendererMachine.final {} events).held ↔
        .made object ∈ ledgerOf {} events ∧ .released object ∉ ledgerOf {} events) ∧
      ((rendererMachine.final {} events).turn = .idle ∨ (rendererMachine.final {} events).turn = .ended →
        ∀ object, .made object ∈ ledgerOf {} (events ++ [.join]) →
          .released object ∈ ledgerOf {} (events ++ [.join])) ∧
      ((rendererMachine.final {} events).usedNull = true ↔
        ∃ before reply after, events = before ++ .render reply :: after ∧
          (rendererMachine.final {} before).Remakes reply ∧ (reply.sws = false ∨ reply.yuvFrame = false)) := by
  obtain ⟨books, kept⟩ := books_run events
  refine ⟨books.orderly, fun object => books.mem_held_iff, fun finished object made => ?_, usedNull_run events⟩
  have joined := (books_run (events ++ [.join])).1
  have none : (rendererMachine.final {} (events ++ [.join])).held = 0 := by
    have empty : (rendererMachine.final {} events).loop = {} := kept.outside (finished.imp_right .inr)
    have unused : ¬(rendererMachine.final {} events).usedNull = true := fun used => by
      obtain ⟨frame, drawing⟩ := kept.stopped used
      simp [drawing] at finished
    have step : (rendererMachine.final {} (events ++ [.join])) =
        { rendererMachine.final {} events with turn := .idle, frames := [] } := by
      rw [Transducer.final_append, Transducer.final_cons, Transducer.final_nil, rendererMachine_step, if_neg unused,
        VideoRenderer.step, if_pos finished]
    rw [step, VideoRenderer.held, empty]
    rfl
  rw [Books, none] at joined
  exact joined.released_of_empty made

/-- Of four pictures the first one goes and the second one is drawn; all nine objects are freed. -/
example :
    let events : List RendererEvent := List.replicate 4 (.submit ⟨640, 360, 0⟩ true) ++ [.start, .init true, .test,
      .take, .pollEvents false, .render ⟨true, true, true, true, true⟩, .stop, .test, .join]
    (rendererMachine.final {} events).nextObject = 9 ∧ (rendererMachine.final {} events).held = 0 := by
  decide +kernel

end WeakNetVideo
