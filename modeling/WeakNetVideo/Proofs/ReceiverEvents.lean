import WeakNetVideo.Model.ReceiverEvents
import WeakNetVideo.Proofs.ReceiverDrain

/-! # Calls as runs of events

A call of the receiver leaves the state and hands on the frames of the run of its events. A property
of all runs of events is therefore one of all runs of calls.
-/

namespace WeakNetVideo

variable {rtc : Rtc} {r : Receiver}

@[simp] theorem receiverMachine_step (rtc : Rtc) (r : Receiver) (event : ReceiverEvent) :
    (receiverMachine rtc).step r event = r.step rtc event := rfl

@[simp] theorem receiverCalls_step (rtc : Rtc) (r : Receiver) (call : ReceiverCall) :
    (receiverCalls rtc).step r call = r.call rtc call := rfl

theorem receiveArrivals_eq (rtc : Rtc) (arrivals : List (ℤ × MessagePtr)) (r : Receiver) :
    Receiver.receiveArrivals rtc arrivals r =
      ((receiverMachine rtc).final r (packetEvents (mediaArrivals rtc arrivals)),
        controlMessages rtc arrivals) := by
  induction arrivals generalizing r with
  | nil => rfl
  | cons arrival rest ih =>
    obtain ⟨atUs, pointer⟩ := arrival
    cases pointer with
    | none =>
      simp only [Receiver.receiveArrivals, ih]
      rfl
    | some message =>
      simp only [Receiver.receiveArrivals]
      split_ifs with media
      · rw [ih]
        simp only [mediaArrivals, controlMessages, packetEvents, List.filterMap_cons, media, if_true,
          Option.map_some, List.map_cons, List.filter_cons, Bool.not_true, Bool.false_eq_true, if_false,
          Transducer.final_cons, receiverMachine_step, Receiver.step]
      · rw [ih]
        simp only [mediaArrivals, controlMessages, packetEvents, List.filterMap_cons, media, if_false,
          List.map_cons, List.filter_cons, Bool.not_false, if_true, Bool.false_eq_true]

/-- Packets hand nothing on by themselves. -/
theorem outputs_packetEvents (rtc : Rtc) (media : List (ℤ × Message)) (r : Receiver) :
    ∀ output ∈ (receiverMachine rtc).outputs r (packetEvents media), output = {} := by
  induction media generalizing r with
  | nil => simp [packetEvents]
  | cons arrival rest ih =>
    intro output member
    simp only [packetEvents, List.map_cons, Transducer.outputs_cons, List.mem_cons] at member
    rcases member with here | there
    · exact here
    · exact ih _ output there

theorem packetEvents_config (rtc : Rtc) (media : List (ℤ × Message)) (r : Receiver) :
    Receiver.SameConfig r ((receiverMachine rtc).final r (packetEvents media)) := by
  induction media generalizing r with
  | nil => exact .refl r
  | cons arrival rest ih =>
    exact (Receiver.processReceiverPacket_config rtc r arrival.1 arrival.2).trans (ih _)

/-- The state and the frames of a batch: its packets, then one drain, then one poll. -/
private theorem receiverIncoming_eq (rtc : Rtc) (r : Receiver) (batch : Batch) :
    (r.receiverIncoming rtc batch).1 =
        (receiverMachine rtc).final r (ReceiverCall.events rtc (.incoming batch)) ∧
      (r.receiverIncoming rtc batch).2.output.frames =
        ((receiverMachine rtc).outputs r (ReceiverCall.events rtc (.incoming batch))).flatMap
          Output.frames ∧
      (r.receiverIncoming rtc batch).2.output.sent =
        ((receiverMachine rtc).outputs r (ReceiverCall.events rtc (.incoming batch))).flatMap
          Output.sent := by
  generalize bound_eq : ({ r with receiverSend := true } : Receiver) = bound
  generalize received_eq : (receiverMachine rtc).final bound
    (packetEvents (mediaArrivals rtc batch.arrivals)) = received
  generalize drained_eq : received.drainCompleteFrames batch.drainUs = drained
  have send : drained.1.receiverSend = true := by
    have packets := packetEvents_config rtc (mediaArrivals rtc batch.arrivals) bound
    have drain := (Receiver.drain_spec received batch.drainUs).2.1
    rw [received_eq] at packets
    rw [drained_eq] at drain
    rw [drain.send, packets.send, ← bound_eq]
  have poll : drained.1.poll batch.pollUs = drained.1.receiverPoll batch.pollUs := by
    rw [Receiver.poll, if_pos send]
  have quiet : ∀ {α : Type} (shown : Output → List α), shown {} = [] →
      ((receiverMachine rtc).outputs bound
        (packetEvents (mediaArrivals rtc batch.arrivals))).flatMap shown = [] := by
    intro α shown empty
    rw [List.flatMap_eq_nil_iff]
    intro output member
    rw [outputs_packetEvents rtc _ _ output member, empty]
  have run : r.receiverIncoming rtc batch = ((drained.1.receiverPoll batch.pollUs).1, {
      messages := controlMessages rtc batch.arrivals ++ drained.2.frames.flatMap FrameAssembly.packets
      output := { drained.2 with
        sent := drained.2.sent ++ (drained.1.receiverPoll batch.pollUs).2.sent } }) := by
    simp only [Receiver.receiverIncoming, bound_eq, receiveArrivals_eq, received_eq, drained_eq]
  have silent : (drained.1.receiverPoll batch.pollUs).2.frames = [] := rfl
  rw [run]
  simp only [ReceiverCall.events, Transducer.final_cons, Transducer.outputs_cons,
    Transducer.final_append, Transducer.outputs_append, receiverMachine_step, Receiver.step, bound_eq,
    received_eq, drained_eq, List.flatMap_cons, List.flatMap_append, Transducer.final_nil,
    Transducer.outputs_nil, List.flatMap_nil, poll, silent, quiet Output.frames rfl,
    quiet Output.sent rfl, List.nil_append, List.append_nil, and_self]

/-- Every call leaves the state of its events. -/
theorem call_expands (rtc : Rtc) :
    (receiverMachine rtc).Expands (receiverCalls rtc) (ReceiverCall.events rtc) := by
  intro r call
  cases call with
  | incoming batch => exact (receiverIncoming_eq rtc r batch).1
  | poll atUs => rfl
  | invalidateSync => rfl
  | recordPliSent => rfl

/-- Every call hands on the frames of its events. -/
theorem call_frames (rtc : Rtc) (r : Receiver) (call : ReceiverCall) :
    (r.call rtc call).2.output.frames =
      ((receiverMachine rtc).outputs r (call.events rtc)).flatMap Output.frames := by
  cases call with
  | incoming batch => exact (receiverIncoming_eq rtc r batch).2.1
  | poll atUs => exact (List.append_nil _).symm
  | invalidateSync => rfl
  | recordPliSent => rfl

/-- A batch leaves its control messages, in order, and then the packets of the frames handed on. -/
theorem incoming_messages (rtc : Rtc) (r : Receiver) (batch : Batch) :
    (r.receiverIncoming rtc batch).2.messages = controlMessages rtc batch.arrivals ++
      (r.receiverIncoming rtc batch).2.output.frames.flatMap FrameAssembly.packets := by
  simp only [Receiver.receiverIncoming, receiveArrivals_eq]

theorem final_calls (rtc : Rtc) (r : Receiver) (calls : List ReceiverCall) :
    (receiverCalls rtc).final r calls = (receiverMachine rtc).final r (runEvents rtc calls) :=
  (call_expands rtc).final_flatMap r calls

theorem emitted_eq (rtc : Rtc) (r : Receiver) (calls : List ReceiverCall) :
    emitted rtc r calls =
      ((receiverMachine rtc).outputs r (runEvents rtc calls)).flatMap Output.frames :=
  (call_expands rtc).flatMap_outputs (fun s call => call_frames rtc s call) r calls

theorem turnEvents_append (rtc : Rtc) (first second : List ReceiverTurn) :
    turnEvents rtc (first ++ second) = turnEvents rtc first ++ turnEvents rtc second :=
  List.flatMap_append

/-- Calls one behind the other are the turns that they consist of. -/
theorem turnEvents_turns (rtc : Rtc) (calls : List ReceiverCall) :
    turnEvents rtc (calls.flatMap ReceiverCall.turns) = runEvents rtc calls := by
  induction calls with
  | nil => rfl
  | cons call calls ih =>
    have here : turnEvents rtc call.turns = call.events rtc := by
      cases call <;> simp [ReceiverCall.turns, turnEvents, ReceiverTurn.events, ReceiverCall.events]
    rw [List.flatMap_cons, turnEvents_append, ih, here]
    rfl

end WeakNetVideo
