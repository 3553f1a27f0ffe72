import WeakNetVideo.Proofs.FrameLedger

/-! # Frame accounting

While the receiver is in order, every frame is counted once. Behind an outage the count is exact where each id from
the cursor up to the keyframe was whole or overdue at just one drain of the outage: where one was at none the keyframe
takes it along uncounted, and where one was put back it may be counted twice.
-/

namespace WeakNetVideo

open Receiver

variable {rtc : Rtc} {first : UInt32} {r : Receiver} {ledger : Ledger} {atUs : ℤ}

/-! ## Runs of one epoch -/

/-- What the valid packets of a run are stamped with, in the order in which they are processed. -/
def processedStamps (rtc : Rtc) (events : List ReceiverEvent) : List FrameMetadata :=
  events.filterMap fun event =>
    match event with
    | .packet _ message => validMetadata rtc message
    | _ => none

/-- The first packet of a frame comes behind those of the frames before it. -/
def FirstsIncrease : List UInt32 → List FrameMetadata → Prop
  | _, [] => True
  | seen, metadata :: rest =>
    (metadata.frameId ∈ seen ∨ ∀ id ∈ seen, id < metadata.frameId) ∧
      FirstsIncrease (metadata.frameId :: seen) rest

instance decidableFirstsIncrease : ∀ (seen : List UInt32) (stamps : List FrameMetadata),
    Decidable (FirstsIncrease seen stamps)
  | _, [] => .isTrue trivial
  | seen, metadata :: rest =>
    @instDecidableAnd _ _ (@instDecidableOr _ _ _ (List.decidableBAll _ seen))
      (decidableFirstsIncrease (metadata.frameId :: seen) rest)

/-- A run of one epoch, without duplicates, in which the frames begin in the order of their ids. -/
structure SingleEpochRun (rtc : Rtc) (epoch : UInt16) (first : UInt32) (events : List ReceiverEvent) : Prop where
  epoch : ∀ metadata ∈ processedStamps rtc events, metadata.epoch = epoch
  distinct : ((processedStamps rtc events).map fun metadata => (metadata.frameId, metadata.packetIndex)).Nodup
  first : (processedStamps rtc events).head?.map FrameMetadata.frameId = some first
  increase : FirstsIncrease [] (processedStamps rtc events)

/-! ## Gaps that are over once -/

/-- Where the cursor stood when it was unset, and the ids that were whole or overdue at the drains since the
synchronization was lost. -/
structure Outage where
  frozen : Option UInt32 := none
  due : List UInt32 := []
deriving DecidableEq

/-- A drain without the keyframe notes what it finds whole or overdue; with the keyframe the outage ends. -/
def Outage.next (outage : Outage) (r : Receiver) : ReceiverEvent → Outage
  | .drain atUs =>
    if r.stats.synchronized then outage
    else
      match r.frames.toList.find? IsSyncPoint with
      | some _ => {}
      | none => { outage with due := outage.due ++ (r.due atUs).map Prod.fst }
  | .invalidateSync => { outage with frozen := outage.frozen.or r.nextOutputFrameId }
  | _ => outage

/-- The ids from one up to another. -/
def idsUpTo (first last : UInt32) : List UInt32 :=
  (List.range (last.toNat - first.toNat)).map fun i => first + UInt32.ofNat i

/-- When the keyframe to go on from is there, each id from the cursor up to it is whole or overdue now, or was
at a drain of the outage, just once altogether, and no other id was. The ids end before they wrap. -/
def Outage.OverOnce (rtc : Rtc) (outage : Outage) (r : Receiver) : ReceiverEvent → Prop
  | .drain atUs => r.stats.synchronized = false →
    ∀ keyframe ∈ r.frames.toList.find? IsSyncPoint, ∀ cursor ∈ outage.frozen.or r.nextOutputFrameId,
      cursor ≤ keyframe.1 ∧
        (outage.due ++ (r.due atUs).map Prod.fst).Perm (idsUpTo cursor keyframe.1)
  | .packet _ message => ∀ metadata ∈ validMetadata rtc message, metadata.frameId ≠ 0xffffffff
  | _ => True

-- The quantifiers go over options, not over all ids.
instance (rtc : Rtc) (outage : Outage) (r : Receiver) :
    (event : ReceiverEvent) → Decidable (outage.OverOnce rtc r event)
  | .drain _ => @instDecidableForall _ _ _ (@Option.decidableForallMem _ _
      (fun _ => @Option.decidableForallMem _ _ (fun _ => inferInstance) _) _)
  | .packet _ _ => @Option.decidableForallMem _ _ (fun _ => inferInstance) _
  | .bindSend | .poll _ | .invalidateSync | .recordPliSent => .isTrue trivial

/-- The receiver with the outage it is in. -/
def outageMachine (rtc : Rtc) : Transducer (Receiver × Outage) ReceiverEvent Output where
  step s event := (((s.1.step rtc event).1, s.2.next s.1 event), (s.1.step rtc event).2)

/-- Every step of a run finds each id of a gap over once. -/
def GapsOverOnce (rtc : Rtc) (r : Receiver) (events : List ReceiverEvent) : Prop :=
  (outageMachine rtc).Everywhere (fun _ s event => s.2.OverOnce rtc s.1 event) [] (r, {}) events

instance (rtc : Rtc) (r : Receiver) (events : List ReceiverEvent) : Decidable (GapsOverOnce rtc r events) :=
  inferInstanceAs (Decidable ((outageMachine rtc).Everywhere _ [] (r, {}) events))

theorem length_idsUpTo (first last : UInt32) : (idsUpTo first last).length = last.toNat - first.toNat := by
  rw [idsUpTo, List.length_map, List.length_range]

/-- The ledger of a receiver in an outage. Either nothing has come yet, or the cursor stands, or stood when it
was unset, at the cursor of the ledger. -/
structure Followed (epoch : UInt16) (first : UInt32) (r : Receiver) (ledger : Ledger) (outage : Outage) : Prop where
  books : Kept first r ledger
  due : ledger.givenUp = outage.due.length
  bound : ledger.cursor < 2 ^ 32
  last : ∀ (id : UInt32) (frame : FrameAssembly), r.frames[id]? = some frame → id ≠ 0xffffffff
  inOrder : r.stats.synchronized = true → outage.frozen = none
  place : (r.receiverEpoch = some epoch ∧
      outage.frozen.or r.nextOutputFrameId = some (UInt32.ofNat ledger.cursor)) ∨
    (r.receiverEpoch = none ∧ r.frames = ∅ ∧ r.nextOutputFrameId = none ∧ outage.frozen = none ∧
      ledger.cursor = first.toNat)

/-- A buffered id is not the last one, so the cursor behind it does not wrap. -/
private theorem succ_lt_of_buffered {cursor : ℕ} {frame : FrameAssembly} (bound : cursor < 2 ^ 32)
    (last : ∀ (id : UInt32) (frame : FrameAssembly), r.frames[id]? = some frame → id ≠ 0xffffffff)
    (found : r.frames[UInt32.ofNat cursor]? = some frame) : cursor + 1 < 2 ^ 32 := by
  by_contra wraps
  obtain rfl : cursor = 2 ^ 32 - 1 := by omega
  exact last _ frame found rfl

/-- A drain in order leaves the cursor in front of the wrap. -/
private theorem bound_drain {cursor : ℕ} (kept : r.stats.synchronized = true)
    (next : r.nextOutputFrameId = some (UInt32.ofNat cursor)) (bound : cursor < 2 ^ 32)
    (last : ∀ (id : UInt32) (frame : FrameAssembly), r.frames[id]? = some frame → id ≠ 0xffffffff) :
    cursor + (r.drainCompleteFrames atUs).2.frames.length +
      (if (r.drainCompleteFrames atUs).1.stats.synchronized then 0 else 1) < 2 ^ 32 := by
  induction r, kept using drain_induction generalizing cursor with
  | absent r kept absent =>
    rw [drain_absent kept absent, if_pos kept]
    exact bound
  | incomplete r kept id frame here found incomplete =>
    obtain rfl : id = UInt32.ofNat cursor := Option.some.inj (here.symm.trans next)
    have behind := succ_lt_of_buffered bound last found
    rw [drain_incomplete kept here found incomplete]
    dsimp only
    rw [List.length_nil]
    split_ifs <;> omega
  | complete r kept id frame here found complete ih =>
    obtain rfl : id = UInt32.ofNat cursor := Option.some.inj (here.symm.trans next)
    obtain ⟨rest, rest_eq, step⟩ := drain_complete atUs kept here found complete
    obtain rfl : r.passFrame (UInt32.ofNat cursor) = rest := rest_eq.symm
    have later := @ih (cursor + 1) (by rw [passFrame, UInt32.ofNat_add]; rfl)
      (succ_lt_of_buffered bound last found)
      fun other assembly there => last other assembly (OrderedMap.get_of_get_erase there).1
    rw [step]
    dsimp only
    rw [List.length_cons]
    omega

/-- A drain puts nothing into an empty buffer. -/
private theorem empty_drain (empty : r.frames = ∅) : (r.drainCompleteFrames atUs).1.frames = ∅ := by
  apply OrderedMap.eq_empty_of_get_none
  intro id
  cases found : (r.drainCompleteFrames atUs).1.frames[id]? with
  | none => rfl
  | some frame =>
    have before := (drain_spec r atUs).2.2.1 id frame found
    rw [empty, Std.ExtTreeMap.getElem?_empty] at before
    contradiction

/-- No packet of the last id puts it into the buffer, and nothing else does. -/
private theorem last_step {outage : Outage} {event : ReceiverEvent} (once : outage.OverOnce rtc r event)
    (last : ∀ (id : UInt32) (frame : FrameAssembly), r.frames[id]? = some frame → id ≠ 0xffffffff) :
    ∀ (id : UInt32) (frame : FrameAssembly), (r.step rtc event).1.frames[id]? = some frame →
      id ≠ 0xffffffff := by
  intro id frame found
  cases event with
  | bindSend => exact last id frame found
  | recordPliSent => exact last id frame found
  | invalidateSync => simp [step, invalidateSync] at found
  | drain atUs => exact last id frame ((drain_spec r atUs).2.2.1 id frame found)
  | poll atUs =>
    obtain ⟨before, _, present, _⟩ := (poll_polled r atUs).get found
    exact last id before present
  | packet atUs message =>
    simp only [step] at found
    cases valid : validMetadata rtc message with
    | none =>
      rw [processReceiverPacket_of_invalid valid] at found
      exact last id frame found
    | some metadata =>
      rcases get_processReceiverPacket valid found with ⟨adopted, _⟩ | ⟨_, below⟩ | ⟨rfl, _⟩
      · exact last id frame (get_adoptEpoch adopted).1
      · rintro rfl
        have order := UInt32.lt_iff_toNat_lt.mp below
        have most := metadata.frameId.toNat_lt
        change 2 ^ 32 - 1 < _ at order
        omega
      · exact once metadata valid

variable {epoch : UInt16} {outage : Outage}

/-- A step that finds each id of a gap over once balances. -/
private theorem balances_of_overOnce (followed : Followed epoch first r ledger outage) {event : ReceiverEvent}
    (once : outage.OverOnce rtc r event) : ledger.Balances r event := by
  cases event with
  | drain atUs =>
    rw [Ledger.Balances]
    split_ifs with kept
    · intro _
      have next := (followed.books.inOrder kept).2
      have bound := @bound_drain r atUs _ kept next followed.bound followed.last
      omega
    · intro keyframe found
      rcases followed.place with ⟨_, cursor⟩ | ⟨_, empty, _⟩
      · obtain ⟨below, perm⟩ := once (Bool.eq_false_iff.mpr kept) keyframe found _ cursor
        have length := perm.length_eq
        have bound := followed.bound
        rw [UInt32.le_iff_toNat_le, UInt32.toNat_ofNat_of_lt' bound] at below
        rw [length_idsUpTo, UInt32.toNat_ofNat_of_lt' bound, List.length_append, List.length_map] at length
        rw [followed.due]
        omega
      · have there := Std.ExtTreeMap.mem_toList_iff_getElem?_eq_some.mp (List.mem_of_find?_eq_some found)
        rw [empty, Std.ExtTreeMap.getElem?_empty] at there
        contradiction
  | _ => trivial

/-- A drain in order passes the frames with the cursor. -/
private theorem followed_inOrder (followed : Followed epoch first r ledger outage)
    (kept : r.stats.synchronized = true) (atUs : ℤ)
    (books : Kept first (r.drainCompleteFrames atUs).1 (ledger.next r (.drain atUs)))
    (last : ∀ (id : UInt32) (frame : FrameAssembly), (r.drainCompleteFrames atUs).1.frames[id]? = some frame →
      id ≠ 0xffffffff) :
    Followed epoch first (r.drainCompleteFrames atUs).1 (ledger.next r (.drain atUs))
      (outage.next r (.drain atUs)) := by
  obtain ⟨none, next⟩ := followed.books.inOrder kept
  have bound := @bound_drain r atUs _ kept next followed.bound followed.last
  have cursor := (@counted_drain r atUs _ kept next).2
  have frozen := followed.inOrder kept
  have due := followed.due
  rw [none] at due
  refine ⟨books, ?_, ?_, last, ?_, ?_⟩ <;> simp only [Ledger.next, Outage.next, if_pos kept]
  · exact due
  · exact bound
  · exact fun _ => frozen
  · rcases followed.place with ⟨mine, _⟩ | ⟨_, _, unset, _⟩
    · exact .inl ⟨(drain_spec r atUs).1.trans mine, by rw [frozen, Option.none_or, cursor]⟩
    · rw [unset] at next
      contradiction

/-- A drain of the outage leaves the cursor, or ends the outage with the keyframe. -/
private theorem followed_outage (followed : Followed epoch first r ledger outage)
    (lost : r.stats.synchronized = false) (atUs : ℤ)
    (books : Kept first (r.drainCompleteFrames atUs).1 (ledger.next r (.drain atUs)))
    (last : ∀ (id : UInt32) (frame : FrameAssembly), (r.drainCompleteFrames atUs).1.frames[id]? = some frame →
      id ≠ 0xffffffff) :
    Followed epoch first (r.drainCompleteFrames atUs).1 (ledger.next r (.drain atUs))
      (outage.next r (.drain atUs)) := by
  have closed : ¬r.stats.synchronized = true := by simp [lost]
  have own := (drain_spec r atUs).1
  rcases outage_drain atUs lost with ⟨search, _, lost', same, _⟩ | ⟨id, frame, search, _, next, _⟩
  · refine ⟨books, ?_, ?_, last, ?_, ?_⟩ <;> simp only [Ledger.next, Outage.next, if_neg closed, search]
    · rw [followed.due, List.length_append, List.length_map]
    · exact followed.bound
    · intro still
      rw [lost'] at still
      contradiction
    · rw [own, same]
      rcases followed.place with stands | ⟨fresh, empty, unset⟩
      · exact .inl stands
      · exact .inr ⟨fresh, empty_drain empty, unset⟩
  · have there := Std.ExtTreeMap.mem_toList_iff_getElem?_eq_some.mp (List.mem_of_find?_eq_some search)
    have label := (followed.books.labelled id frame there).1
    have behind := @succ_lt_of_buffered r id.toNat frame id.toNat_lt followed.last (by rw [UInt32.ofNat_toNat, there])
    refine ⟨books, ?_, ?_, last, ?_, ?_⟩ <;> simp only [Ledger.next, Outage.next, if_neg closed, search]
    · rfl
    · exact behind
    · exact fun _ => trivial
    · rcases followed.place with ⟨mine, _⟩ | ⟨_, empty, _⟩
      · exact .inl ⟨own.trans mine, by rw [Option.none_or, next, label, UInt32.ofNat_add, UInt32.ofNat_toNat]; rfl⟩
      · rw [empty, Std.ExtTreeMap.getElem?_empty] at there
        contradiction

/-- The packet that begins a run sets the cursor, and later ones of the epoch leave it or put it back. -/
private theorem followed_packet (followed : Followed epoch first r ledger outage) {atUs : ℤ} {message : Message}
    (books : Kept first (r.processReceiverPacket rtc atUs message) ledger)
    (last : ∀ (id : UInt32) (frame : FrameAssembly), (r.processReceiverPacket rtc atUs message).frames[id]? =
      some frame → id ≠ 0xffffffff)
    (own : ∀ metadata ∈ validMetadata rtc message, metadata.epoch = epoch ∧
      (r.receiverEpoch = none → metadata.frameId = first)) :
    Followed epoch first (r.processReceiverPacket rtc atUs message) ledger outage := by
  refine ⟨books, followed.due, followed.bound, last, fun still => ?_, ?_⟩
  · have other : ∀ time : ℤ, ReceiverEvent.packet atUs message ≠ .drain time := fun _ => nofun
    have kept : (r.step rtc (.packet atUs message)).1.stats.synchronized = true := still
    exact followed.inOrder (step_synchronized_of_ne_drain other kept).1
  · cases valid : validMetadata rtc message with
    | none =>
      rw [processReceiverPacket_of_invalid valid]
      exact followed.place
    | some metadata =>
      obtain ⟨epoch', first'⟩ := own metadata valid
      rw [processReceiverPacket_receiverEpoch valid, processReceiverPacket_cursor valid, epoch']
      refine .inl ⟨rfl, ?_⟩
      rcases followed.place with ⟨mine, cursor⟩ | ⟨fresh, _, _, frozen, start⟩
      · rw [adoptEpoch_of_current (mine.trans (by rw [epoch']))]
        cases stood : outage.frozen with
        | some other => rwa [stood] at cursor
        | none =>
          rw [stood, Option.none_or] at cursor
          rw [cursor]
          rfl
      · rw [adoptEpoch_of_switch (by rw [fresh]; exact nofun), frozen, start]
        simp [first' fresh]

/-- One step of a run of one epoch keeps the trace. -/
private theorem followed_step (followed : Followed epoch first r ledger outage) {event : ReceiverEvent}
    (once : outage.OverOnce rtc r event)
    (own : ∀ metadata ∈ (processedStamps rtc [event]).head?, metadata.epoch = epoch ∧
      (r.receiverEpoch = none → metadata.frameId = first)) :
    Followed epoch first (r.step rtc event).1 (ledger.next r event) (outage.next r event) := by
  have books := (kept_step rtc followed.books event).2 (balances_of_overOnce followed once)
  have last := last_step once followed.last
  cases event with
  | drain atUs =>
    cases kept : r.stats.synchronized with
    | true => exact followed_inOrder followed kept atUs books last
    | false => exact followed_outage followed kept atUs books last
  | packet atUs message =>
    refine followed_packet followed books last fun metadata valid => own metadata ?_
    simp only [processedStamps, List.filterMap_cons, Option.mem_def.mp valid, List.head?_cons, Option.mem_def]
  | bindSend => exact ⟨books, followed.due, followed.bound, last, followed.inOrder, followed.place⟩
  | recordPliSent => exact ⟨books, followed.due, followed.bound, last, followed.inOrder, followed.place⟩
  | poll atUs =>
    have polled := poll_polled r atUs
    refine ⟨books, followed.due, followed.bound, last, fun still => followed.inOrder ?_, ?_⟩
    · exact polled.synchronized.symm.trans still
    · simp only [step, polled.epoch, polled.cursor]
      rcases followed.place with stands | ⟨fresh, empty, rest⟩
      · exact .inl stands
      · exact .inr ⟨fresh, polled.empty empty, rest⟩
  | invalidateSync =>
    refine ⟨books, followed.due, followed.bound, last, fun still => ?_, ?_⟩
    · simp [step, invalidateSync] at still
    · rcases followed.place with ⟨mine, cursor⟩ | ⟨fresh, _, unset, frozen, start⟩
      · exact .inl ⟨mine, (Option.or_none).trans cursor⟩
      · refine .inr ⟨fresh, rfl, rfl, ?_, start⟩
        simp only [Outage.next, frozen, unset, Option.or_none]

/-- Once something has come the epoch is known. -/
private theorem fresh_before (rtc : Rtc) {event : ReceiverEvent}
    (fresh : (r.step rtc event).1.receiverEpoch = none) :
    r.receiverEpoch = none ∧ processedStamps rtc [event] = [] := by
  cases event with
  | drain atUs => exact ⟨(drain_spec r atUs).1.symm.trans fresh, rfl⟩
  | poll atUs => exact ⟨(poll_polled r atUs).epoch.symm.trans fresh, rfl⟩
  | bindSend => exact ⟨fresh, rfl⟩
  | recordPliSent => exact ⟨fresh, rfl⟩
  | invalidateSync => exact ⟨fresh, rfl⟩
  | packet atUs message =>
    simp only [step] at fresh
    cases valid : validMetadata rtc message with
    | none =>
      rw [processReceiverPacket_of_invalid valid] at fresh
      exact ⟨fresh, by simp [processedStamps, valid]⟩
    | some metadata =>
      rw [processReceiverPacket_receiverEpoch valid] at fresh
      contradiction

/-- A run of one epoch whose gaps are over once balances. -/
private theorem balanced_of_gapsOverOnce {events : List ReceiverEvent} (past past' : List Output)
    (followed : Followed epoch first r ledger outage)
    (own : ∀ metadata ∈ processedStamps rtc events, metadata.epoch = epoch)
    (start : r.receiverEpoch = none → ∀ metadata ∈ (processedStamps rtc events).head?, metadata.frameId = first)
    (once : (outageMachine rtc).Everywhere (fun _ s event => s.2.OverOnce rtc s.1 event) past (r, outage)
      events) :
    (ledgerMachine rtc).Everywhere (fun _ s event => s.2.Balances s.1 event) past' (r, ledger) events := by
  induction events generalizing r ledger outage past past' with
  | nil => trivial
  | cons event events ih =>
    obtain ⟨here, later⟩ := once
    have cut : processedStamps rtc (event :: events) =
        processedStamps rtc [event] ++ processedStamps rtc events := List.filterMap_append (l := [event])
    rw [cut] at own start
    have next := followed_step followed here fun metadata member =>
      ⟨own metadata (List.mem_append_left _ (List.mem_of_mem_head? member)), fun fresh =>
        start fresh metadata (by rw [List.head?_append, Option.mem_def.mp member]; rfl)⟩
    refine ⟨balances_of_overOnce followed here, ih _ _ next
      (fun metadata member => own metadata (List.mem_append_right _ member)) (fun fresh => ?_) later⟩
    obtain ⟨before, silent⟩ := fresh_before rtc fresh
    have begins := start before
    rwa [silent, List.nil_append] at begins

/-- In a run of one epoch in which each id of a gap is over once, the frames counted whenever a frame is handed
on are those from the first one up to it. -/
theorem accounting_exact (rtc : Rtc) (recoveryTimeoutMs : ℤ) {epoch : UInt16} {first : UInt32}
    {calls : List ReceiverCall} (single : SingleEpochRun rtc epoch first (runEvents rtc calls))
    (once : GapsOverOnce rtc (.new recoveryTimeoutMs) (runEvents rtc calls)) :
    ExactAccounting rtc first (.new recoveryTimeoutMs) (runEvents rtc calls) := by
  have opened : Followed epoch first (.new recoveryTimeoutMs) ⟨first.toNat, 0⟩ {} := by
    refine ⟨kept_new recoveryTimeoutMs first, rfl, first.toNat_lt, fun id frame found => ?_, fun _ => rfl,
      .inr ⟨rfl, rfl, rfl, rfl, rfl⟩⟩
    simp [Receiver.new] at found
  have start := single.first
  refine (accounting_exact_iff rtc recoveryTimeoutMs first calls).mpr
    (balanced_of_gapsOverOnce [] [] opened single.epoch (fun _ metadata member => ?_) once)
  rw [Option.mem_def.mp member] at start
  exact Option.some.inj start

private def arrival (atUs : ℤ) (frameId : UInt32) (index count : UInt16) (keyframe : Bool) : ℤ × MessagePtr :=
  (atUs, some (addFrameMetadata .rfc5761 ⟨1, frameId, index, count, keyframe⟩
    (Rtp.packet (UInt16.ofNat frameId.toNat) true [1])))

/-- Frame 2 is overdue, frame 3 comes whole without a keyframe, and the keyframe 4 follows at once. -/
private def shortOutage : List ReceiverCall :=
  [.incoming ⟨[arrival 1000 1 0 1 true, arrival 1000 2 0 2 false], 1000, 1000⟩, .incoming ⟨[], 2000, 2000⟩,
    .incoming ⟨[], 1002000, 1002000⟩, .incoming ⟨[arrival 1003000 3 0 1 false], 1003000, 1003000⟩,
    .incoming ⟨[arrival 1004000 4 0 1 true, arrival 1004000 5 0 1 false], 1004000, 1004000⟩,
    .incoming ⟨[], 1005000, 1005000⟩]

theorem shortOutage_accounted :
    (emitted .rfc5761 (.new 1000) shortOutage).map FrameAssembly.frameId = [1, 4, 5] ∧
      ExactAccounting .rfc5761 1 (.new 1000) (runEvents .rfc5761 shortOutage) :=
  ⟨by decide +kernel, @accounting_exact .rfc5761 1000 1 1 shortOutage
    ⟨by decide +kernel, by decide +kernel, by decide +kernel, by decide +kernel⟩ (by decide +kernel)⟩

/-- Frame 2 is overdue. Of frame 3 one packet is missing when the keyframe 4 is there. -/
private def brokenBehindOutage : List ReceiverCall :=
  [.incoming ⟨[arrival 1000 1 0 1 true, arrival 1000 2 0 2 false], 1000, 1000⟩,
    .incoming ⟨[], 1002000, 1002000⟩,
    .incoming ⟨[arrival 1003000 3 0 2 false, arrival 1003000 4 0 1 true], 1003000, 1003000⟩]

/-- Four frames are over when the keyframe is handed on, and three have been counted. -/
theorem brokenBehindOutage_miscounted :
    SingleEpochRun .rfc5761 1 1 (runEvents .rfc5761 brokenBehindOutage) ∧
    (emitted .rfc5761 (.new 1000) brokenBehindOutage).map FrameAssembly.frameId = [1, 4] ∧
    ¬ExactAccounting .rfc5761 1 (.new 1000) (runEvents .rfc5761 brokenBehindOutage) := by
  refine ⟨⟨by decide +kernel, by decide +kernel, by decide +kernel, by decide +kernel⟩, by decide +kernel,
    fun exact_ => ?_⟩
  have each := exact_ ((runEvents .rfc5761 brokenBehindOutage).take 11) 1003000
    ((runEvents .rfc5761 brokenBehindOutage).drop 12) (by decide +kernel)
  exact absurd each (by decide +kernel)

end WeakNetVideo
