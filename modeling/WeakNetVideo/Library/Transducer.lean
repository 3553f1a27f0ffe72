import Mathlib.Data.List.Basic
import Mathlib.Data.List.Induction

/-! # Deterministic machines with outputs

A transducer maps a state and an event to a successor and one output. Runs compose at a semantic
cut, an invariant may mention every output emitted so far, and a side condition may restrict each
step by the outputs, the state and the event it is taken at. Nothing here names a program: the
states, events and outputs are arbitrary types.
-/

universe u v w

/-- A deterministic machine: one successor and one output for every state and event. -/
structure Transducer (State : Type u) (Event : Type v) (Output : Type w) where
  step : State → Event → State × Output

namespace Transducer

variable {State : Type u} {Event : Type v} {Output : Type w} (T : Transducer State Event Output)

/-- The state reached after all events. -/
def final (s : State) (es : List Event) : State :=
  es.foldl (fun s e => (T.step s e).1) s

/-- The outputs of a run, one for each event. -/
def outputs : State → List Event → List Output
  | _, [] => []
  | s, e :: es => (T.step s e).2 :: outputs (T.step s e).1 es

@[simp] theorem final_nil (s : State) : T.final s [] = s := rfl

@[simp] theorem final_cons (s : State) (e : Event) (es : List Event) :
    T.final s (e :: es) = T.final (T.step s e).1 es := rfl

@[simp] theorem outputs_nil (s : State) : T.outputs s [] = [] := rfl

@[simp] theorem outputs_cons (s : State) (e : Event) (es : List Event) :
    T.outputs s (e :: es) = (T.step s e).2 :: T.outputs (T.step s e).1 es := rfl

theorem final_append (s : State) (first second : List Event) :
    T.final s (first ++ second) = T.final (T.final s first) second :=
  List.foldl_append

theorem outputs_append (s : State) (first second : List Event) :
    T.outputs s (first ++ second) = T.outputs s first ++ T.outputs (T.final s first) second := by
  induction first generalizing s with
  | nil => rfl
  | cons e es ih => simp only [List.cons_append, outputs_cons, final_cons, ih]

theorem outputs_concat (s : State) (es : List Event) (e : Event) :
    T.outputs s (es ++ [e]) = T.outputs s es ++ [(T.step (T.final s es) e).2] := T.outputs_append s es [e]

/-- A side condition holds at every step of the run, seen with the outputs that preceded it. -/
def Everywhere (P : List Output → State → Event → Prop) :
    List Output → State → List Event → Prop
  | _, _, [] => True
  | past, s, e :: es =>
    P past s e ∧ Everywhere P (past ++ [(T.step s e).2]) (T.step s e).1 es

instance decidableEverywhere {P : List Output → State → Event → Prop}
    [each : ∀ past s e, Decidable (P past s e)] :
    ∀ (past : List Output) (s : State) (es : List Event), Decidable (T.Everywhere P past s es)
  | _, _, [] => .isTrue trivial
  | past, s, e :: es =>
    @instDecidableAnd _ _ (each past s e)
      (decidableEverywhere (past ++ [(T.step s e).2]) (T.step s e).1 es)

theorem everywhere_cons {P : List Output → State → Event → Prop} {past : List Output} {s : State}
    {e : Event} {es : List Event} : T.Everywhere P past s (e :: es) ↔
      P past s e ∧ T.Everywhere P (past ++ [(T.step s e).2]) (T.step s e).1 es := Iff.rfl

theorem everywhere_append {P : List Output → State → Event → Prop} {past : List Output} {s : State}
    {first second : List Event} : T.Everywhere P past s (first ++ second) ↔
      T.Everywhere P past s first ∧
        T.Everywhere P (past ++ T.outputs s first) (T.final s first) second := by
  induction first generalizing past s with
  | nil => simp [Everywhere]
  | cons e es ih =>
    simp only [List.cons_append, everywhere_cons, ih, outputs_cons, final_cons, List.append_assoc,
      List.nil_append, and_assoc]

/-- The condition everywhere is the condition at every cut of the run. -/
theorem everywhere_iff_cut {P : List Output → State → Event → Prop} {past : List Output}
    {s : State} {es : List Event} : T.Everywhere P past s es ↔
      ∀ first e rest, es = first ++ e :: rest →
        P (past ++ T.outputs s first) (T.final s first) e := by
  constructor
  · rintro holds first e rest rfl
    exact (T.everywhere_cons.mp (T.everywhere_append.mp holds).2).1
  · intro cuts
    induction es generalizing past s with
    | nil => trivial
    | cons e es ih =>
      refine ⟨by simpa using cuts [] e es rfl, ih ?_⟩
      rintro first next rest rfl
      simpa using cuts (e :: first) next rest rfl

theorem everywhere_and {P Q : List Output → State → Event → Prop} {past : List Output} {s : State}
    {es : List Event} : T.Everywhere (fun past s e => P past s e ∧ Q past s e) past s es ↔
      T.Everywhere P past s es ∧ T.Everywhere Q past s es := by
  induction es generalizing past s with
  | nil => simp [Everywhere]
  | cons e es ih =>
    simp only [everywhere_cons, ih]
    constructor
    · rintro ⟨⟨left, right⟩, tail, other⟩
      exact ⟨⟨left, tail⟩, right, other⟩
    · rintro ⟨⟨left, tail⟩, right, other⟩
      exact ⟨⟨left, right⟩, tail, other⟩

/-- A condition on the event alone holds everywhere when it holds of every event. -/
theorem everywhere_of_forall {ok : Event → Prop} {past : List Output} {s : State}
    {es : List Event} (all : ∀ e ∈ es, ok e) :
    T.Everywhere (fun _ _ e => ok e) past s es := by
  induction es generalizing past s with
  | nil => trivial
  | cons e es ih =>
    exact ⟨all e (List.mem_cons_self ..), ih fun other member =>
      all other (List.mem_cons_of_mem _ member)⟩

/-- An invariant over the outputs so far and the current state survives every run whose steps
all satisfy the side condition. -/
theorem invariant {I : List Output → State → Prop} {P : List Output → State → Event → Prop}
    (step : ∀ past s e, I past s → P past s e → I (past ++ [(T.step s e).2]) (T.step s e).1)
    {past : List Output} {s : State} {es : List Event} (start : I past s)
    (holds : T.Everywhere P past s es) : I (past ++ T.outputs s es) (T.final s es) := by
  induction es generalizing past s with
  | nil => simpa using start
  | cons e es ih =>
    have tail := ih (step past s e start holds.1) holds.2
    simpa only [List.append_assoc, List.singleton_append, outputs_cons, final_cons] using tail

/-- A state invariant survives every run over admissible events. -/
theorem preserves {I : State → Prop} {ok : Event → Prop}
    (step : ∀ s e, ok e → I s → I (T.step s e).1) {s : State} {es : List Event} (start : I s)
    (all : ∀ e ∈ es, ok e) : I (T.final s es) :=
  @invariant _ _ _ T (fun _ s => I s) (fun _ _ e => ok e)
    (fun _ s e holds admitted => step s e admitted holds) [] s es start (T.everywhere_of_forall all)

/-! ## Marks -/

section Marks

variable {τ : Type*} (mark : State → Event → Option τ)

/-- What the steps of a run mark. -/
def marks : State → List Event → List τ
  | _, [] => []
  | s, e :: es => (mark s e).toList ++ marks (T.step s e).1 es

theorem marks_append (s : State) (first second : List Event) :
    T.marks mark s (first ++ second) = T.marks mark s first ++ T.marks mark (T.final s first) second := by
  induction first generalizing s with
  | nil => rfl
  | cons e es ih => rw [List.cons_append, marks, ih, marks, List.append_assoc, final_cons]

theorem marks_concat (s : State) (es : List Event) (e : Event) :
    T.marks mark s (es ++ [e]) = T.marks mark s es ++ (mark (T.final s es) e).toList := by
  rw [marks_append]
  exact congrArg _ (List.append_nil _)

/-- An invariant over the marks so far and the state survives every run over admissible events. -/
theorem marks_invariant {I : List τ → State → Prop} {ok : Event → Prop}
    (step : ∀ times s e, ok e → I times s → I (times ++ (mark s e).toList) (T.step s e).1) {s : State}
    {es : List Event} (start : I [] s) (all : ∀ e ∈ es, ok e) : I (T.marks mark s es) (T.final s es) := by
  induction es using List.reverseRecOn with
  | nil => exact start
  | append_singleton es e ih =>
    rw [List.forall_mem_append, List.forall_mem_singleton] at all
    rw [marks_concat, final_append]
    exact step _ _ e all.2 (ih all.1)

end Marks

/-! ## Simulation -/

/-- Two machines that take the same steps in related states, wherever a side condition holds of the
first one, have related outputs. -/
theorem simulation {State' Event' Output' Joint : Type*} {S : Transducer State' Event' Output'}
    {left : Joint → Event} {right : Joint → Event'} {R : State → State' → Prop}
    {Q : Output → Output' → Prop} {P : List Output → State → Event → Prop}
    (step : ∀ past s t j, R s t → P past s (left j) →
      R (T.step s (left j)).1 (S.step t (right j)).1 ∧ Q (T.step s (left j)).2 (S.step t (right j)).2)
    {past : List Output} {s : State} {t : State'} {js : List Joint} (start : R s t)
    (holds : T.Everywhere P past s (js.map left)) :
    List.Forall₂ Q (T.outputs s (js.map left)) (S.outputs t (js.map right)) := by
  induction js generalizing past s t with
  | nil => exact .nil
  | cons j js ih =>
    obtain ⟨next, outputs⟩ := step past s t j start holds.1
    exact .cons outputs (ih next holds.2)

/-- Two runs in lockstep over related events stay in related states and show related outputs. -/
theorem lockstep {State' Event' Output' : Type*} {S : Transducer State' Event' Output'}
    {D : Event → Event' → Prop} {R : State → State' → Prop} {Q : Output → Output' → Prop}
    (step : ∀ s t e e', R s t → D e e' → R (T.step s e).1 (S.step t e').1 ∧ Q (T.step s e).2 (S.step t e').2)
    {s : State} {t : State'} {es : List Event} {es' : List Event'} (start : R s t)
    (inputs : List.Forall₂ D es es') :
    R (T.final s es) (S.final t es') ∧ List.Forall₂ Q (T.outputs s es) (S.outputs t es') := by
  induction inputs generalizing s t with
  | nil => exact ⟨start, .nil⟩
  | cons first _ ih =>
    obtain ⟨next, output⟩ := step s t _ _ start first
    obtain ⟨last, outputs⟩ := ih next
    exact ⟨last, .cons output outputs⟩

/-! ## Finer machines -/

variable {Call : Type v} {Reply : Type w}

/-- Every step of one machine is a run of a finer machine over the same states. -/
def Expands (S : Transducer State Call Reply) (expand : Call → List Event) : Prop :=
  ∀ s call, (S.step s call).1 = T.final s (expand call)

variable {T} {S : Transducer State Call Reply} {expand : Call → List Event}

/-- Whole runs expand to runs. -/
theorem Expands.final_flatMap (expands : T.Expands S expand) (s : State) (calls : List Call) :
    S.final s calls = T.final s (calls.flatMap expand) := by
  induction calls generalizing s with
  | nil => rfl
  | cons call calls ih => rw [final_cons, List.flatMap_cons, final_append, ih, expands]

/-- What each step shows of its outputs, a run of steps shows of the expanded run. -/
theorem Expands.flatMap_outputs {Shown : Type*} (expands : T.Expands S expand)
    {shownReply : Reply → List Shown} {shown : Output → List Shown}
    (agree : ∀ s call, shownReply (S.step s call).2 = (T.outputs s (expand call)).flatMap shown)
    (s : State) (calls : List Call) : (S.outputs s calls).flatMap shownReply =
      (T.outputs s (calls.flatMap expand)).flatMap shown := by
  induction calls generalizing s with
  | nil => rfl
  | cons call calls ih =>
    rw [outputs_cons, List.flatMap_cons, List.flatMap_cons, outputs_append, List.flatMap_append, ih,
      agree, expands]

end Transducer
