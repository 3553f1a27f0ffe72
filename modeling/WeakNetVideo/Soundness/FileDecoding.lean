import WeakNetVideo.Model.FileDecoding

/-! # Every frame of the file comes out once and in order

FFmpeg's decoders are pulled: a packet may give no frame, one or several, late ones come behind the flush, and a
packet is taken only when there is nothing more to receive. Whatever the codec behind the calls makes of its packets,
`next_decoded_frame` hands out just that.
-/

namespace WeakNetVideo

/-- A code that stands for a failure. -/
abbrev ErrorCode := { code : ℤ // code < 0 ∧ code ≠ averrorEagain ∧ code ≠ averrorEof }

/-- A codec: what it makes of a packet, unless it refuses it, and what it still holds at the end. -/
structure PacketCodec (State Packet : Type*) where
  decode : State → Packet → State × Except ErrorCode (List (Except ErrorCode DecodedFrame))
  delayed : State → List (Except ErrorCode DecodedFrame)

/-- What a decoder context holds: its codec's state, what can be received, and whether it has been flushed. -/
structure CodecView (State : Type*) where
  state : State
  ready : List (Except ErrorCode DecodedFrame)
  flushed : Bool

/-- The decoder answers for a codec as the calls are documented. Nothing is said of a packet that is sent while
there is something to receive, or behind the flush. -/
structure AnswersFor {Context Packet State : Type*} (decoder : VideoDecoder Context Packet)
    (codec : PacketCodec State Packet) where
  view : Context → CodecView State
  receive_frame : ∀ c state frame ready flushed, view c = ⟨state, .ok frame :: ready, flushed⟩ →
    (decoder.receiveFrame c).2 = (0, frame) ∧ view (decoder.receiveFrame c).1 = ⟨state, ready, flushed⟩
  receive_error : ∀ c state code ready flushed, view c = ⟨state, .error code :: ready, flushed⟩ →
    (decoder.receiveFrame c).2.1 = code.1 ∧ view (decoder.receiveFrame c).1 = ⟨state, ready, flushed⟩
  receive_again : ∀ c state, view c = ⟨state, [], false⟩ →
    (decoder.receiveFrame c).2.1 = averrorEagain ∧ view (decoder.receiveFrame c).1 = ⟨state, [], false⟩
  receive_eof : ∀ c state, view c = ⟨state, [], true⟩ →
    (decoder.receiveFrame c).2.1 = averrorEof ∧ view (decoder.receiveFrame c).1 = ⟨state, [], true⟩
  send_taken : ∀ c state packet state' made, view c = ⟨state, [], false⟩ →
    codec.decode state packet = (state', .ok made) →
    0 ≤ (decoder.sendPacket c (some packet)).2 ∧ view (decoder.sendPacket c (some packet)).1 = ⟨state', made, false⟩
  send_refused : ∀ c state packet state' code, view c = ⟨state, [], false⟩ →
    codec.decode state packet = (state', .error code) →
    (decoder.sendPacket c (some packet)).2 = code.1 ∧
      view (decoder.sendPacket c (some packet)).1 = ⟨state', [], false⟩
  send_flush : ∀ c state, view c = ⟨state, [], false⟩ →
    0 ≤ (decoder.sendPacket c none).2 ∧ view (decoder.sendPacket c none).1 = ⟨state, codec.delayed state, true⟩

/-- One thing that a call of `next_decoded_frame` returns or throws before the end. -/
abbrev DecodedItem := Except DecodingError DecodedFrame

/-- What is received from the decoder, as `next_decoded_frame` returns or throws it. -/
def receivedItem : Except ErrorCode DecodedFrame → DecodedItem
  | .ok frame => .ok frame
  | .error code => .error (.receiveFrame code.1)

/-- What the call comes to that returns or throws it. -/
def called (item : DecodedItem) : Decoded := item.map some

namespace PacketCodec

variable {State Packet : Type*}

/-- A whole stream decoded, packet by packet and then what is left. -/
def decodeAll (codec : PacketCodec State Packet) : State → List Packet → List DecodedItem
  | state, [] => (codec.delayed state).map receivedItem
  | state, packet :: packets =>
    match codec.decode state packet with
    | (state', .ok made) => made.map receivedItem ++ codec.decodeAll state' packets
    | (state', .error code) => .error (.sendPacket code.1) :: codec.decodeAll state' packets

end PacketCodec

/-! ## A decoder for every codec -/

namespace PacketCodec

variable {State Packet : Type*}

/-- The calls in front of a codec, as simple as can be. -/
def decoder (codec : PacketCodec State Packet) : VideoDecoder (CodecView State) Packet where
  receiveFrame view :=
    match view.ready with
    | .ok frame :: ready => ({ view with ready := ready }, 0, frame)
    | .error code :: ready => ({ view with ready := ready }, code.1, ⟨none⟩)
    | [] => (view, if view.flushed then averrorEof else averrorEagain, ⟨none⟩)
  sendPacket view packet :=
    if view.flushed then (view, averrorEof)
    else if view.ready ≠ [] then (view, averrorEagain)
    else
      match packet with
      | none => ({ view with ready := codec.delayed view.state, flushed := true }, 0)
      | some packet =>
        match codec.decode view.state packet with
        | (state, .ok made) => ({ view with state := state, ready := made }, 0)
        | (state, .error code) => ({ view with state := state }, code.1)

def answers (codec : PacketCodec State Packet) : AnswersFor codec.decoder codec where
  view := id
  receive_frame := by
    rintro _ state frame ready flushed rfl
    exact ⟨rfl, rfl⟩
  receive_error := by
    rintro _ state code ready flushed rfl
    exact ⟨rfl, rfl⟩
  receive_again := by
    rintro _ state rfl
    exact ⟨rfl, rfl⟩
  receive_eof := by
    rintro _ state rfl
    exact ⟨rfl, rfl⟩
  send_taken := by
    rintro _ state packet state' made rfl decoded
    simp [decoder, decoded]
  send_refused := by
    rintro _ state packet state' code rfl decoded
    simp [decoder, decoded]
  send_flush := by
    rintro _ state rfl
    exact ⟨le_refl _, rfl⟩

/-- A codec that returns every frame one packet late and refuses damaged packets. -/
def oneLate : PacketCodec (Option DecodedFrame) (Option ℤ) where
  decode
    | late, some timestamp => (some ⟨some timestamp⟩, .ok (late.toList.map .ok))
    | late, none => (late, .error ⟨-1094995529, by decide⟩)
  delayed late := late.toList.map .ok

end PacketCodec

/-! ## The calls -/

/-- The packets of a stream. -/
def streamPackets {Packet : Type*} (videoStreamIndex : ℤ) (packets : List (FilePacket Packet)) : List Packet :=
  (packets.filter (·.streamIndex = videoStreamIndex)).map FilePacket.data

namespace FileDecoding

variable {Context Packet State : Type*} {decoder : VideoDecoder Context Packet} {codec : PacketCodec State Packet}

theorem readFrame_streamPackets {videoStreamIndex : ℤ} {packets : List (FilePacket Packet)} :
    streamPackets videoStreamIndex packets =
      match readFrame videoStreamIndex packets with
      | (none, _) => []
      | (some packet, rest) => packet :: streamPackets videoStreamIndex rest := by
  induction packets with
  | nil => rfl
  | cons first packets ih =>
    by_cases own : first.streamIndex = videoStreamIndex
    · simp only [streamPackets, readFrame, own, ne_eq, not_true_eq_false, if_false, decide_true,
        List.filter_cons_of_pos, List.map_cons]
    · rw [readFrame, if_pos own, ← ih, streamPackets, List.filter_cons_of_neg (by simpa using own), streamPackets]

section Decoding

variable (answers : AnswersFor decoder codec)

/-- What is still to come out. -/
def remaining (reader : FileDecoding Context Packet) : List DecodedItem :=
  let view := answers.view reader.decoderContext
  view.ready.map receivedItem ++
    if reader.decoderFlushed then []
    else codec.decodeAll view.state
      (if reader.inputEof then [] else streamPackets reader.videoStreamIndex reader.formatContext)

/-- The reader and the decoder agree on the flush, which the end of the file comes before. -/
structure InStep (reader : FileDecoding Context Packet) : Prop where
  flushed : (answers.view reader.decoderContext).flushed = reader.decoderFlushed
  atEnd : reader.decoderFlushed = true → reader.inputEof = true

/-- What a call returns in front of some items: the first of them, or that there is none. -/
def firstOf : List DecodedItem → Decoded
  | [] => .ok none
  | item :: _ => called item

/-- How many of the next allocations of a packet fail. -/
def failing (reader : FileDecoding Context Packet) : ℕ := reader.packetAllocs.count false

/-- What the calls return and throw that were given a packet, or needed none. -/
def allocated (results : List Decoded) : List Decoded :=
  results.filter fun decoded => decide (decoded ≠ .error .packetAlloc)

/-- What a reader leaves: nothing is lost or made, also where an allocation has failed, or the first item has been
returned and the others are left. -/
structure Leaves (reader after : FileDecoding Context Packet) (returned : Option Decoded) : Prop where
  inStep : InStep answers after
  items : returned = none ∧ remaining answers after = remaining answers reader ∧ after.failing = reader.failing ∨
    returned = some (firstOf (remaining answers reader)) ∧
      remaining answers after = (remaining answers reader).tail ∧ after.failing = reader.failing ∨
    returned = some (.error .packetAlloc) ∧ remaining answers after = remaining answers reader ∧
      after.failing + 1 = reader.failing

/-- What a turn leaves. -/
abbrev TurnKeeps (reader : FileDecoding Context Packet) : Prop :=
  Leaves answers reader (reader.turn decoder).1 (reader.turn decoder).2

variable {answers} {reader : FileDecoding Context Packet}

/-- In front of something to receive. -/
private theorem turnKeeps_ready {item : Except ErrorCode DecodedFrame} {ready : List (Except ErrorCode DecodedFrame)}
    (inStep : InStep answers reader) (held : (answers.view reader.decoderContext).ready = item :: ready) :
    TurnKeeps answers reader := by
  cases viewed : answers.view reader.decoderContext with
  | mk state ready' flushed =>
    obtain rfl : ready' = item :: ready := by simpa only [viewed] using held
    have left : remaining answers reader = receivedItem item :: (ready.map receivedItem ++
        if reader.decoderFlushed then []
        else codec.decodeAll state
          (if reader.inputEof then [] else streamPackets reader.videoStreamIndex reader.formatContext)) := by
      simp only [remaining, viewed, List.map_cons, List.cons_append]
    cases item with
    | ok frame =>
      obtain ⟨answer, later⟩ := answers.receive_frame _ _ _ _ _ viewed
      have turned : reader.turn decoder =
          ({ reader with decoderContext := (decoder.receiveFrame reader.decoderContext).1 },
            some (.ok (some frame))) := by
        simp only [turn, answer, if_true]
      constructor
      · rw [turned]
        exact ⟨by simpa only [later, viewed] using inStep.flushed, inStep.atEnd⟩
      · rw [left, turned]
        exact .inr (.inl ⟨rfl, by simp only [remaining, later, List.tail_cons], rfl⟩)
    | error code =>
      obtain ⟨answer, later⟩ := answers.receive_error _ _ _ _ _ viewed
      have turned : reader.turn decoder =
          ({ reader with decoderContext := (decoder.receiveFrame reader.decoderContext).1 },
            some (.error (.receiveFrame code.1))) := by
        have failed : code.1 ≠ 0 := ne_of_lt code.2.1
        simp only [turn, answer, failed, code.2.2.1, code.2.2.2, ne_eq, not_false_eq_true, if_true, if_false]
      constructor
      · rw [turned]
        exact ⟨by simpa only [later, viewed] using inStep.flushed, inStep.atEnd⟩
      · rw [left, turned]
        exact .inr (.inl ⟨rfl, by simp only [remaining, later, List.tail_cons], rfl⟩)

/-- Behind the last frame. -/
private theorem turnKeeps_flushed {state : State} (inStep : InStep answers reader)
    (flushed : reader.decoderFlushed = true)
    (viewed : answers.view reader.decoderContext = ⟨state, [], true⟩) : TurnKeeps answers reader := by
  obtain ⟨answer, later⟩ := answers.receive_eof _ _ viewed
  have turned : reader.turn decoder =
      ({ reader with decoderContext := (decoder.receiveFrame reader.decoderContext).1 }, some (.ok none)) := by
    simp only [turn, answer]
    rfl
  have nothing : remaining answers reader = [] := by
    simp only [remaining, viewed, flushed, if_true, List.map_nil, List.nil_append]
  constructor
  · rw [turned]
    exact ⟨by simpa only [later] using flushed.symm, inStep.atEnd⟩
  · rw [nothing, turned]
    exact .inr (.inl ⟨rfl,
      by simp only [remaining, later, flushed, if_true, List.map_nil, List.nil_append, List.tail_nil], rfl⟩)

/-- At the end of the file the decoder is flushed. -/
private theorem turnKeeps_flush {state : State} (unflushed : reader.decoderFlushed = false)
    (atEnd : reader.inputEof = true) (viewed : answers.view reader.decoderContext = ⟨state, [], false⟩) :
    TurnKeeps answers reader := by
  obtain ⟨answer, later⟩ := answers.receive_again _ _ viewed
  obtain ⟨taken, last⟩ := answers.send_flush _ _ later
  have turned : reader.turn decoder =
      ({ reader with
        decoderContext := (decoder.sendPacket (decoder.receiveFrame reader.decoderContext).1 none).1
        decoderFlushed := true }, none) := by
    simp only [turn, answer, atEnd, unflushed, Bool.not_false, if_true, if_neg (not_lt.mpr taken)]
    rfl
  constructor
  · rw [turned]
    exact ⟨by simp only [last], fun _ => atEnd⟩
  · rw [turned]
    refine .inl ⟨rfl, ?_, rfl⟩
    simp only [remaining, last, viewed, unflushed, atEnd, PacketCodec.decodeAll, if_true, Bool.false_eq_true, if_false,
      List.append_nil, List.map_nil, List.nil_append]

/-- A packet that cannot be allocated is not read. -/
private theorem turnKeeps_unmade {state : State} (inStep : InStep answers reader)
    (unflushed : reader.decoderFlushed = false) (more : reader.inputEof = false)
    (viewed : answers.view reader.decoderContext = ⟨state, [], false⟩)
    (unmade : reader.packetAllocs.headD true = false) : TurnKeeps answers reader := by
  obtain ⟨answer, later⟩ := answers.receive_again _ _ viewed
  have turned : reader.turn decoder =
      ({ reader with
        decoderContext := (decoder.receiveFrame reader.decoderContext).1
        packetAllocs := reader.packetAllocs.tail }, some (.error .packetAlloc)) := by
    simp only [turn, answer, more, unmade, Bool.false_eq_true, if_false]
    rfl
  constructor
  · rw [turned]
    exact ⟨by simpa only [later] using unflushed.symm, inStep.atEnd⟩
  · rw [turned]
    refine .inr (.inr ⟨rfl, ?_, ?_⟩)
    · simp only [remaining, later, viewed]
    · rw [failing, failing]
      cases allocs : reader.packetAllocs with
      | nil => simp [allocs] at unmade
      | cons made allocs =>
        obtain rfl : made = false := by simpa [allocs] using unmade
        rw [List.tail_cons, List.count_cons_self]

/-- Before the end of the file the next packet of the stream is sent. -/
private theorem turnKeeps_send {state : State} (inStep : InStep answers reader)
    (unflushed : reader.decoderFlushed = false) (more : reader.inputEof = false)
    (viewed : answers.view reader.decoderContext = ⟨state, [], false⟩)
    (alloc : reader.packetAllocs.headD true = true) : TurnKeeps answers reader := by
  obtain ⟨answer, later⟩ := answers.receive_again _ _ viewed
  have unread := @readFrame_streamPackets _ reader.videoStreamIndex reader.formatContext
  have left : remaining answers reader =
      codec.decodeAll state (streamPackets reader.videoStreamIndex reader.formatContext) := by
    simp only [remaining, viewed, unflushed, more, Bool.false_eq_true, if_false, List.map_nil, List.nil_append]
  have allocs : reader.packetAllocs.tail.count false = reader.packetAllocs.count false := by
    cases given : reader.packetAllocs with
    | nil => rfl
    | cons made allocs =>
      obtain rfl : made = true := by simpa [given] using alloc
      rw [List.tail_cons, List.count_cons_of_ne (by decide)]
  cases read : readFrame reader.videoStreamIndex reader.formatContext with
  | mk packet packets =>
    rw [read] at unread
    cases packet with
    | none =>
      have turned : reader.turn decoder =
          ({ reader with
            decoderContext := (decoder.receiveFrame reader.decoderContext).1
            packetAllocs := reader.packetAllocs.tail
            formatContext := packets
            inputEof := true }, none) := by
        simp only [turn, answer, more, alloc, read, Bool.false_eq_true, if_false]
        rfl
      constructor
      · rw [turned]
        exact ⟨by simpa only [later] using unflushed.symm, fun _ => rfl⟩
      · rw [left, turned, unread]
        refine .inl ⟨rfl, ?_, allocs⟩
        simp only [remaining, later, unflushed, if_true, Bool.false_eq_true, if_false, List.map_nil, List.nil_append]
    | some packet =>
      cases decoded : codec.decode state packet with
      | mk state' made =>
        cases made with
        | ok made =>
          obtain ⟨taken, last⟩ := answers.send_taken _ _ _ _ _ later decoded
          have turned : reader.turn decoder =
              ({ reader with
                decoderContext :=
                  (decoder.sendPacket (decoder.receiveFrame reader.decoderContext).1 (some packet)).1
                packetAllocs := reader.packetAllocs.tail
                formatContext := packets }, none) := by
            simp only [turn, answer, more, alloc, read, Bool.false_eq_true, if_false, not_lt.mpr taken, false_and]
            rfl
          constructor
          · rw [turned]
            exact ⟨by simpa only [last] using unflushed.symm, inStep.atEnd⟩
          · rw [left, turned, unread]
            refine .inl ⟨rfl, ?_, allocs⟩
            simp only [remaining, last, unflushed, more, PacketCodec.decodeAll, decoded, Bool.false_eq_true, if_false]
        | error code =>
          obtain ⟨refused, last⟩ := answers.send_refused _ _ _ _ _ later decoded
          have turned : reader.turn decoder =
              ({ reader with
                decoderContext :=
                  (decoder.sendPacket (decoder.receiveFrame reader.decoderContext).1 (some packet)).1
                packetAllocs := reader.packetAllocs.tail
                formatContext := packets }, some (.error (.sendPacket code.1))) := by
            simp only [turn, answer, more, alloc, read, refused, code.2.1, code.2.2.1, ne_eq, not_false_eq_true,
              and_self, Bool.false_eq_true, if_true, if_false]
            rfl
          constructor
          · rw [turned]
            exact ⟨by simpa only [last] using unflushed.symm, inStep.atEnd⟩
          · rw [left, turned, unread]
            simp only [PacketCodec.decodeAll, decoded]
            refine .inr (.inl ⟨rfl, ?_, allocs⟩)
            simp only [remaining, last, unflushed, more, Bool.false_eq_true, if_false, List.map_nil, List.nil_append,
              List.tail_cons]

theorem turnKeeps_of_inStep (inStep : InStep answers reader) : TurnKeeps answers reader := by
  cases viewed : answers.view reader.decoderContext with
  | mk state ready flushed =>
    cases ready with
    | cons item ready => exact turnKeeps_ready inStep (congrArg CodecView.ready viewed)
    | nil =>
      have same : flushed = reader.decoderFlushed := by simpa only [viewed] using inStep.flushed
      cases unflushed : reader.decoderFlushed with
      | true =>
        rw [same, unflushed] at viewed
        exact turnKeeps_flushed inStep unflushed viewed
      | false =>
        rw [same, unflushed] at viewed
        cases atEnd : reader.inputEof with
        | true => exact turnKeeps_flush unflushed atEnd viewed
        | false =>
          cases alloc : reader.packetAllocs.headD true with
          | true => exact turnKeeps_send inStep unflushed atEnd viewed alloc
          | false => exact turnKeeps_unmade inStep unflushed atEnd viewed alloc

/-- A call of `next_decoded_frame` hands out the first of what is left, and leaves the others; or it has no packet to
read with, and leaves everything. -/
theorem nextDecodedFrame_leaves (inStep : InStep answers reader) :
    Leaves answers reader (reader.nextDecodedFrame decoder).1 (some (reader.nextDecodedFrame decoder).2) := by
  refine (decodingLoop decoder).result_of_kept
    (P := fun turned => InStep answers turned ∧ remaining answers turned = remaining answers reader ∧
      turned.failing = reader.failing)
    (Q := fun left decoded => Leaves answers reader left (some decoded)) ?_ ?_ ⟨inStep, rfl, rfl⟩
  · rintro turned ⟨still, same, allocs⟩ goesOn
    have keeps := turnKeeps_of_inStep still
    refine ⟨keeps.inStep, ?_⟩
    rcases keeps.items with ⟨-, kept, given⟩ | ⟨returned, -⟩ | ⟨returned, -⟩
    · exact ⟨kept.trans same, given.trans allocs⟩
    · exact absurd (goesOn.symm.trans returned) (Option.some_ne_none _).symm
    · exact absurd (goesOn.symm.trans returned) (Option.some_ne_none _).symm
  · rintro turned ⟨still, same, allocs⟩ decoded returned
    have keeps := turnKeeps_of_inStep still
    have items := keeps.items
    rw [show (turn decoder turned).2 = some decoded from returned, same, allocs] at items
    exact ⟨keeps.inStep, items⟩

/-- Where no allocation fails. -/
theorem nextDecodedFrame_first (inStep : InStep answers reader) (alloc : reader.failing = 0) :
    (reader.nextDecodedFrame decoder).2 = firstOf (remaining answers reader) ∧
      remaining answers (reader.nextDecodedFrame decoder).1 = (remaining answers reader).tail ∧
      InStep answers (reader.nextDecodedFrame decoder).1 ∧ (reader.nextDecodedFrame decoder).1.failing = 0 := by
  have leaves := nextDecodedFrame_leaves inStep
  rcases leaves.items with ⟨goesOn, -⟩ | ⟨first, others, given⟩ | ⟨-, -, fewer⟩
  · exact absurd goesOn (Option.some_ne_none _)
  · exact ⟨Option.some.inj first, others, leaves.inStep, given.trans alloc⟩
  · omega

private theorem called_receivedItem (item : Except ErrorCode DecodedFrame) :
    called (receivedItem item) ≠ .error .packetAlloc := by
  cases item <;> simp [receivedItem, called, Except.map]

private theorem called_decodeAll (codec : PacketCodec State Packet) (state : State) (packets : List Packet) :
    ∀ item ∈ codec.decodeAll state packets, called item ≠ .error .packetAlloc := by
  induction packets generalizing state with
  | nil =>
    intro item member
    obtain ⟨held, -, rfl⟩ := List.mem_map.mp member
    exact called_receivedItem held
  | cons packet packets ih =>
    intro item member
    rw [PacketCodec.decodeAll] at member
    cases decoded : codec.decode state packet with
    | mk state' made =>
      rw [decoded] at member
      cases made with
      | ok made =>
        rcases List.mem_append.mp member with here | later
        · obtain ⟨held, -, rfl⟩ := List.mem_map.mp here
          exact called_receivedItem held
        · exact ih state' item later
      | error code =>
        rcases List.mem_cons.mp member with rfl | later
        · simp [called, Except.map]
        · exact ih state' item later

/-- What comes out of the decoder is never taken for a failed allocation. -/
private theorem called_remaining (answers : AnswersFor decoder codec) (reader : FileDecoding Context Packet) :
    ∀ item ∈ remaining answers reader, called item ≠ .error .packetAlloc := by
  intro item member
  rcases List.mem_append.mp member with here | later
  · obtain ⟨held, -, rfl⟩ := List.mem_map.mp here
    exact called_receivedItem held
  · split_ifs at later
    · exact absurd later List.not_mem_nil
    · exact called_decodeAll codec _ _ item later
    · exact called_decodeAll codec _ _ item later

/-- What is behind the first calls makes no difference to them. -/
private theorem take_called {calls few : ℕ} (items : List DecodedItem) (fewer : few ≤ calls) :
    (items.map called ++ List.replicate (calls + 1) (Except.ok none)).take few =
      (items.map called ++ List.replicate calls (Except.ok none)).take few := by
  have short : few ≤ (items.map called ++ List.replicate calls (Except.ok none)).length := by
    rw [List.length_append, List.length_replicate]
    omega
  rw [List.replicate_succ', ← List.append_assoc, List.take_append_of_le_length short]

theorem length_nextDecodedFrames (calls : ℕ) (reader : FileDecoding Context Packet) :
    (reader.nextDecodedFrames decoder calls).length = calls := by
  induction calls generalizing reader with
  | zero => rfl
  | succ calls ih => rw [nextDecodedFrames, List.length_cons, ih]

/-- The calls that have a packet return what is left, one item after another; the others lose nothing. -/
private theorem nextDecodedFrames_remaining {calls : ℕ} (inStep : InStep answers reader) :
    let returned := allocated (reader.nextDecodedFrames decoder calls)
    returned = ((remaining answers reader).map called ++ List.replicate calls (Except.ok none)).take
        returned.length ∧ calls ≤ returned.length + reader.failing := by
  induction calls generalizing reader with
  | zero => exact ⟨rfl, Nat.zero_le _⟩
  | succ calls ih =>
    have leaves := nextDecodedFrame_leaves inStep
    obtain ⟨rest, enough⟩ := ih leaves.inStep
    have fewer : (allocated ((reader.nextDecodedFrame decoder).1.nextDecodedFrames decoder calls)).length ≤ calls :=
      (List.length_filter_le ..).trans_eq (length_nextDecodedFrames calls _)
    simp only [nextDecodedFrames]
    rcases leaves.items with ⟨goesOn, -⟩ | ⟨first, others, given⟩ | ⟨first, others, given⟩
    · exact absurd goesOn (Option.some_ne_none _)
    · obtain first := Option.some.inj first
      have other : (reader.nextDecodedFrame decoder).2 ≠ .error .packetAlloc := by
        rw [first]
        cases left : remaining answers reader with
        | nil => exact nofun
        | cons item items => exact called_remaining answers reader item (left ▸ List.mem_cons_self ..)
      rw [allocated, List.filter_cons_of_pos (by simpa using other), ← allocated, List.length_cons]
      refine ⟨?_, by omega⟩
      rw [first]
      cases left : remaining answers reader with
      | nil =>
        rw [others, left] at rest
        rw [List.map_nil, List.nil_append, List.replicate_succ, List.take_succ_cons]
        exact congrArg _ rest
      | cons item items =>
        rw [others, left, List.tail_cons] at rest
        rw [List.map_cons, List.cons_append, List.take_succ_cons, take_called items fewer]
        exact congrArg _ rest
    · obtain first := Option.some.inj first
      rw [first, allocated, List.filter_cons_of_neg (by simp), ← allocated, take_called _ fewer]
      exact ⟨others ▸ rest, by omega⟩

/-- A file that has just been opened has all its frames to come. -/
theorem opened_inStep {packets : List (FilePacket Packet)} {videoStreamIndex : ℤ} {c : Context} {state : State}
    {packetAllocs : List Bool} (fresh : answers.view c = ⟨state, [], false⟩) :
    InStep answers (opened packets videoStreamIndex c packetAllocs) ∧
      remaining answers (opened packets videoStreamIndex c packetAllocs) =
        codec.decodeAll state (streamPackets videoStreamIndex packets) := by
  refine ⟨⟨congrArg CodecView.flushed fresh, fun flushed => absurd flushed Bool.false_ne_true⟩, ?_⟩
  simp only [remaining, opened, fresh, Bool.false_eq_true, if_false, List.map_nil, List.nil_append]

end Decoding

/-- Of an opened file, calls of `next_decoded_frame` return every frame that the codec makes of the packets of the
video stream and throw every failure, once and in order, and then that there are no more. A call for which no packet
could be allocated throws that, and the next one goes on in its place. -/
theorem decoded_once_in_order (answers : AnswersFor decoder codec) (packets : List (FilePacket Packet))
    (videoStreamIndex : ℤ) (c : Context) (state : State) (fresh : answers.view c = ⟨state, [], false⟩)
    (packetAllocs : List Bool) (calls : ℕ) :
    let results := (opened packets videoStreamIndex c packetAllocs).nextDecodedFrames decoder calls
    let expected := (codec.decodeAll state (streamPackets videoStreamIndex packets)).map called ++
      List.replicate calls (Except.ok none)
    allocated results = expected.take (allocated results).length ∧
      calls ≤ (allocated results).length + packetAllocs.count false ∧
      (false ∉ packetAllocs → results = expected.take calls) := by
  intro results expected
  obtain ⟨inStep, all⟩ := @opened_inStep _ _ _ _ _ answers packets videoStreamIndex c state packetAllocs fresh
  obtain ⟨returned, enough⟩ := @nextDecodedFrames_remaining _ _ _ _ _ _ _ calls inStep
  rw [all] at returned
  refine ⟨returned, enough, fun given => ?_⟩
  have every : (allocated results).length = results.length := by
    have none : (opened packets videoStreamIndex c packetAllocs).failing = 0 := List.count_eq_zero.mpr given
    rw [none, Nat.add_zero] at enough
    refine le_antisymm (List.length_filter_le ..) ?_
    rw [length_nextDecodedFrames]
    exact enough
  have same : allocated results = results := List.filter_eq_self.mpr (List.length_filter_eq_length_iff.mp every)
  calc results = expected.take (allocated results).length := same.symm.trans returned
    _ = expected.take calls := by rw [every, length_nextDecodedFrames]

end FileDecoding

/-- Frames of stream 0 between sound, with a damaged packet in front of the last one. -/
def someFile : List (FilePacket (Option ℤ)) :=
  [⟨1, some 7⟩, ⟨0, some 0⟩, ⟨0, some 10⟩, ⟨1, some 8⟩, ⟨0, some 40⟩, ⟨0, some 80⟩, ⟨0, none⟩, ⟨0, some 120⟩,
    ⟨1, none⟩]

/-- The second packet cannot be allocated at first. -/
theorem FileDecoding.decoded_once_in_order_late :
    let results := (FileDecoding.opened someFile 0 ⟨none, [], false⟩ [true, false]).nextDecodedFrames
      PacketCodec.oneLate.decoder 8
    results.head? = some (.error .packetAlloc) ∧ allocated results =
      [.ok (some ⟨some 0⟩), .ok (some ⟨some 10⟩), .ok (some ⟨some 40⟩), .error (.sendPacket (-1094995529)),
        .ok (some ⟨some 80⟩), .ok (some ⟨some 120⟩), .ok none] :=
  ⟨rfl, (FileDecoding.decoded_once_in_order PacketCodec.oneLate.answers someFile 0 ⟨none, [], false⟩ none rfl
    [true, false] 8).1.trans rfl⟩

end WeakNetVideo
