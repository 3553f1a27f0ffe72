import Mathlib.Data.List.TakeWhile
import WeakNetVideo.Proofs.ReceiverInvariants

/-! # The ledger of the counted frames

In order, every frame that the cursor passes is counted once, as complete or as dropped. Without
synchronization a drain counts whatever it finds whole or overdue, and the cursor stays: a later packet puts
a dropped frame back, to be counted again when it is overdue, and the keyframe takes along frames that were
never counted. The count is exact when these make up for each other at every keyframe.
-/

namespace WeakNetVideo

namespace Receiver

/-! ## Frames with the statistics -/

/-- The frames that the turns of a synchronized drain hand on, with the statistics when each of them is. -/
def handedOnInOrder : ℕ → Receiver → List (FrameAssembly × VideoTransportStats)
  | 0, _ => []
  | fuel + 1, r =>
    match r.nextOutputFrameId with
    | none => []
    | some next =>
      match r.frames[next]? with
      | none => []
      | some frame =>
        if frame.complete then (frame, (r.passFrame next).stats) :: handedOnInOrder fuel (r.passFrame next)
        else []

/-- The frames that a drain hands on, with the statistics when each of them is. A drain that resynchronizes
is over with its keyframe. -/
def handedOn (r : Receiver) (atUs : ℤ) : List (FrameAssembly × VideoTransportStats) :=
  if r.stats.synchronized then handedOnInOrder r.frames.size r
  else (r.drainCompleteFrames atUs).2.frames.map fun frame => (frame, (r.drainCompleteFrames atUs).1.stats)

/-- The entries in front of the keyframe to go on from, or of all, that are whole or overdue. -/
def due (r : Receiver) (atUs : ℤ) : List (UInt32 × FrameAssembly) :=
  (r.frames.toList.takeWhile fun entry => !IsSyncPoint entry).filter (Droppable r.recoveryTimeoutUs atUs)

variable {r : Receiver} {atUs : ℤ}

private theorem handedOn_absent (kept : r.stats.synchronized = true)
    (absent : ∀ next, r.nextOutputFrameId = some next → r.frames[next]? = none) : r.handedOn atUs = [] := by
  rw [handedOn, if_pos kept]
  cases r.frames.size with
  | zero => rfl
  | succ size =>
    rw [handedOnInOrder]
    split
    · rfl
    case h_2 next cursor => rw [absent next cursor]

private theorem handedOn_incomplete {next : UInt32} {frame : FrameAssembly}
    (kept : r.stats.synchronized = true) (cursor : r.nextOutputFrameId = some next)
    (found : r.frames[next]? = some frame) (incomplete : frame.complete = false) : r.handedOn atUs = [] := by
  rw [handedOn, if_pos kept, ← OrderedMap.size_erase_of_get found]
  simp only [handedOnInOrder, cursor, found, incomplete, Bool.false_eq_true, if_false]

private theorem handedOn_complete {next : UInt32} {frame : FrameAssembly}
    (kept : r.stats.synchronized = true) (cursor : r.nextOutputFrameId = some next)
    (found : r.frames[next]? = some frame) (complete : frame.complete = true) :
    r.handedOn atUs = (frame, (r.passFrame next).stats) :: (r.passFrame next).handedOn atUs := by
  have kept' : (r.passFrame next).stats.synchronized = true := kept
  rw [handedOn, if_pos kept, handedOn, if_pos kept', ← OrderedMap.size_erase_of_get found]
  simp only [handedOnInOrder, cursor, found, complete, if_true]
  rfl

/-- They are the frames of the drain. -/
theorem frames_handedOn (r : Receiver) (atUs : ℤ) :
    (r.handedOn atUs).map Prod.fst = (r.drainCompleteFrames atUs).2.frames := by
  cases flag : r.stats.synchronized with
  | false =>
    rw [handedOn, flag, if_neg (by decide), List.map_map]
    exact List.map_id _
  | true =>
    induction r, flag using drain_induction with
    | absent r kept absent => rw [handedOn_absent kept absent, drain_absent kept absent, List.map_nil]
    | incomplete r kept next frame cursor found whole =>
      rw [handedOn_incomplete kept cursor found whole, drain_incomplete kept cursor found whole, List.map_nil]
    | complete r kept next frame cursor found whole ih =>
      obtain ⟨rest, rest_eq, step⟩ := drain_complete atUs kept cursor found whole
      obtain rfl : r.passFrame next = rest := rest_eq.symm
      rw [handedOn_complete kept cursor found whole, step, List.map_cons, ih]

end Receiver

open Receiver

/-- Frames that have been counted, as complete or as dropped. -/
def VideoTransportStats.counted (stats : VideoTransportStats) : ℕ := stats.completeFrames + stats.droppedFrames

/-- When frame `f` is handed on, the frames counted are those from `first` to `f`. -/
def ExactAccounting (rtc : Rtc) (first : UInt32) (r : Receiver) (events : List ReceiverEvent) : Prop :=
  ∀ before atUs after, events = before ++ .drain atUs :: after →
    ∀ entry ∈ ((receiverMachine rtc).final r before).handedOn atUs,
      entry.2.counted + first.toNat = entry.1.frameId.toNat + 1

/-! ## The ledger of an outage -/

/-- The place of the cursor, without a wrap, and how many assemblies were whole or overdue at the drains
since the synchronization was lost there. -/
structure Ledger where
  cursor : ℕ
  givenUp : ℕ := 0
deriving DecidableEq

/-- In order, the cursor passes what is handed on and a frame that is overdue; a resynchronization moves it
behind the keyframe. -/
def Ledger.next (ledger : Ledger) (r : Receiver) : ReceiverEvent → Ledger
  | .drain atUs =>
    let drained := r.drainCompleteFrames atUs
    if r.stats.synchronized then
      { cursor := ledger.cursor + drained.2.frames.length + if drained.1.stats.synchronized then 0 else 1 }
    else
      match r.frames.toList.find? IsSyncPoint with
      | some keyframe => { cursor := keyframe.1.toNat + 1 }
      | none => { ledger with givenUp := ledger.givenUp + (r.due atUs).length }
  | _ => ledger

/-- In order, the ids do not wrap. When the keyframe to go on from is there, as many assemblies were whole
or overdue since the synchronization was lost as there are ids from the cursor up to the keyframe. -/
def Ledger.Balances (ledger : Ledger) (r : Receiver) : ReceiverEvent → Prop
  | .drain atUs =>
    if r.stats.synchronized then
      (r.drainCompleteFrames atUs).2.frames ≠ [] →
        ledger.cursor + (r.drainCompleteFrames atUs).2.frames.length ≤ 2 ^ 32
    else
      ∀ keyframe ∈ r.frames.toList.find? IsSyncPoint,
        ledger.cursor + (ledger.givenUp + (r.due atUs).length) = keyframe.1.toNat
  | _ => True

/-- The receiver with its ledger. -/
def ledgerMachine (rtc : Rtc) : Transducer (Receiver × Ledger) ReceiverEvent Output where
  step s event := (((s.1.step rtc event).1, s.2.next s.1 event), (s.1.step rtc event).2)

/-- The ledger is opened at the first frame, and balances at every drain. -/
def Balanced (rtc : Rtc) (first : UInt32) (r : Receiver) (events : List ReceiverEvent) : Prop :=
  (ledgerMachine rtc).Everywhere (fun _ s event => s.2.Balances s.1 event) [] (r, ⟨first.toNat, 0⟩) events

/-! ## One event -/

variable {rtc : Rtc} {first : UInt32} {r : Receiver} {ledger : Ledger} {atUs : ℤ}

/-- What is counted are the frames up to the cursor and what was given up since; in order there is nothing
of the latter, and the cursor is that of the receiver. -/
structure Kept (first : UInt32) (r : Receiver) (ledger : Ledger) : Prop where
  labelled : r.Labelled
  counted : r.stats.counted + first.toNat = ledger.cursor + ledger.givenUp
  inOrder : r.stats.synchronized = true →
    ledger.givenUp = 0 ∧ r.nextOutputFrameId = some (UInt32.ofNat ledger.cursor)

private theorem counted_evict (fuel : ℕ) (r : Receiver) : (evict fuel r).stats.counted = r.stats.counted := by
  induction fuel generalizing r with
  | zero => rfl
  | succ fuel ih =>
    rw [evict]
    split_ifs
    · rw [ih]
      rfl
    · rfl

private theorem counted_processReceiverPacket (rtc : Rtc) (r : Receiver) (atUs : ℤ) (message : Message) :
    (r.processReceiverPacket rtc atUs message).stats.counted = r.stats.counted := by
  rw [processReceiverPacket]
  split
  · rfl
  case h_2 metadata _ =>
    have adopted : (r.adoptEpoch metadata).stats.counted = r.stats.counted := by
      simp only [adoptEpoch]
      split_ifs <;> rfl
    have filled : ((r.adoptEpoch metadata).withPlaceholders atUs metadata).stats =
        (r.adoptEpoch metadata).stats := by
      rw [withPlaceholders]
      split
      · rfl
      · split_ifs <;> rfl
    rw [← adopted, ← filled]
    rcases storePacket_cases ((r.adoptEpoch metadata).withPlaceholders atUs metadata) atUs metadata message
      with ⟨_, stored, rfl, step⟩ | ⟨_, step⟩
    · rw [step, counted_evict]
    · rw [step]
      rfl

private theorem counted_pollFrames (atUs : ℤ) (entries : List (UInt32 × FrameAssembly)) (r : Receiver) :
    (pollFrames atUs entries r).1.stats.counted = r.stats.counted := by
  induction entries generalizing r with
  | nil => rfl
  | cons entry entries ih =>
    rw [pollFrames]
    apply (ih _).trans
    rw [pollFrame]
    dsimp only
    split_ifs <;> rfl

/-- Nothing is counted but by a drain. -/
private theorem counted_step (rtc : Rtc) (r : Receiver) {event : ReceiverEvent}
    (other : ∀ atUs, event ≠ .drain atUs) : (r.step rtc event).1.stats.counted = r.stats.counted := by
  cases event with
  | drain atUs => exact absurd rfl (other atUs)
  | packet atUs message => exact counted_processReceiverPacket rtc r atUs message
  | poll atUs =>
    rw [step, poll]
    split_ifs
    · exact counted_pollFrames atUs _ r
    · rfl
  | bindSend => rfl
  | invalidateSync => rfl
  | recordPliSent => rfl

private theorem counted_passFrame (r : Receiver) (id : UInt32) :
    (r.passFrame id).stats.counted = r.stats.counted + 1 := by
  simp only [VideoTransportStats.counted, passFrame]
  omega

/-- A drain in order counts every frame that the cursor passes, and the one it gives up. -/
theorem counted_drain {cursor : ℕ} (kept : r.stats.synchronized = true)
    (next : r.nextOutputFrameId = some (UInt32.ofNat cursor)) :
    (r.drainCompleteFrames atUs).1.stats.counted =
        r.stats.counted + (r.drainCompleteFrames atUs).2.frames.length +
          (if (r.drainCompleteFrames atUs).1.stats.synchronized then 0 else 1) ∧
      (r.drainCompleteFrames atUs).1.nextOutputFrameId =
        some (UInt32.ofNat (cursor + (r.drainCompleteFrames atUs).2.frames.length +
          if (r.drainCompleteFrames atUs).1.stats.synchronized then 0 else 1)) := by
  induction r, kept using drain_induction generalizing cursor with
  | absent r kept absent =>
    rw [drain_absent kept absent, if_pos kept]
    exact ⟨rfl, next⟩
  | incomplete r kept id frame here found incomplete =>
    obtain rfl : id = UInt32.ofNat cursor := Option.some.inj (here.symm.trans next)
    rw [drain_incomplete kept here found incomplete]
    by_cases overdue : atUs - frame.firstSeenUs ≥ r.recoveryTimeoutUs
    · rw [if_pos overdue]
      simp only [VideoTransportStats.counted, markUnsynchronized, List.length_nil, Bool.false_eq_true, if_false]
      exact ⟨by omega, by rw [UInt32.ofNat_add]; rfl⟩
    · rw [if_neg overdue, if_pos kept]
      exact ⟨rfl, next⟩
  | complete r kept id frame here found complete ih =>
    obtain rfl : id = UInt32.ofNat cursor := Option.some.inj (here.symm.trans next)
    obtain ⟨rest, rest_eq, step⟩ := drain_complete atUs kept here found complete
    obtain rfl : r.passFrame (UInt32.ofNat cursor) = rest := rest_eq.symm
    obtain ⟨total, next'⟩ := @ih (cursor + 1) (by rw [passFrame, UInt32.ofNat_add]; rfl)
    rw [step]
    constructor
    · dsimp only
      rw [total, counted_passFrame, List.length_cons]
      omega
    · dsimp only
      rw [next', List.length_cons]
      congr 2
      omega

/-- What a drain in order hands on is the last that is counted unless the ids wrap. -/
private theorem exact_drain {cursor : ℕ} (labelled : r.Labelled) (kept : r.stats.synchronized = true)
    (counted : r.stats.counted + first.toNat = cursor)
    (next : r.nextOutputFrameId = some (UInt32.ofNat cursor)) :
    (∀ entry ∈ r.handedOn atUs, entry.2.counted + first.toNat = entry.1.frameId.toNat + 1) ↔
      ((r.drainCompleteFrames atUs).2.frames ≠ [] →
        cursor + (r.drainCompleteFrames atUs).2.frames.length ≤ 2 ^ 32) := by
  induction r, kept using drain_induction generalizing cursor with
  | absent r kept absent =>
    rw [handedOn_absent kept absent, drain_absent kept absent]
    simp
  | incomplete r kept id frame here found incomplete =>
    rw [handedOn_incomplete kept here found incomplete, drain_incomplete kept here found incomplete]
    simp
  | complete r kept id frame here found complete ih =>
    obtain rfl : id = UInt32.ofNat cursor := Option.some.inj (here.symm.trans next)
    obtain ⟨rest, rest_eq, step⟩ := drain_complete atUs kept here found complete
    obtain rfl : r.passFrame (UInt32.ofNat cursor) = rest := rest_eq.symm
    have passed : (r.passFrame (UInt32.ofNat cursor)).stats.counted + first.toNat = cursor + 1 := by
      rw [counted_passFrame]
      omega
    have later := @ih (cursor + 1)
      (fun other assembly there => labelled other assembly (OrderedMap.get_of_get_erase there).1)
      passed (by rw [passFrame, UInt32.ofNat_add]; rfl)
    rw [handedOn_complete kept here found complete, step, List.forall_mem_cons, later, passed,
      (labelled _ frame found).1, UInt32.toNat_ofNat']
    dsimp only
    rw [List.length_cons]
    constructor
    · rintro ⟨place, bound⟩ _
      cases frames : ((r.passFrame (UInt32.ofNat cursor)).drainCompleteFrames atUs).2.frames with
      | nil => simp only [List.length_nil]; omega
      | cons second others =>
        have := bound (by rw [frames]; exact List.cons_ne_nil _ _)
        rw [frames] at this
        omega
    · intro bound
      have := bound (List.cons_ne_nil _ _)
      exact ⟨by omega, fun _ => by omega⟩

/-- An unsynchronized drain counts what it finds due, and the keyframe if it is there. -/
theorem outage_drain (atUs : ℤ) (lost : r.stats.synchronized = false) :
    (r.frames.toList.find? IsSyncPoint = none ∧ (r.drainCompleteFrames atUs).2.frames = [] ∧
      (r.drainCompleteFrames atUs).1.stats.synchronized = false ∧
      (r.drainCompleteFrames atUs).1.nextOutputFrameId = r.nextOutputFrameId ∧
      (r.drainCompleteFrames atUs).1.stats.counted = r.stats.counted + (r.due atUs).length) ∨
    ∃ id frame, r.frames.toList.find? IsSyncPoint = some (id, frame) ∧
      (r.drainCompleteFrames atUs).2.frames = [frame] ∧
      (r.drainCompleteFrames atUs).1.nextOutputFrameId = some (frame.frameId + 1) ∧
      (r.drainCompleteFrames atUs).1.stats.counted = r.stats.counted + (r.due atUs).length + 1 := by
  have start : r.drainCompleteFrames atUs = resync atUs r.frames.toList r := by
    rw [drainCompleteFrames, lost, if_neg (by decide)]
  cases search : r.frames.toList.find? IsSyncPoint with
  | none =>
    have none := fun entry member => Bool.eq_false_iff.mpr (List.find?_eq_none.mp search entry member)
    have all : r.frames.toList.takeWhile (fun entry => !IsSyncPoint entry) = r.frames.toList :=
      List.takeWhile_eq_self_iff.mpr fun entry member => by rw [none entry member]; rfl
    rw [start, resync_of_none none]
    refine .inl ⟨rfl, rfl, lost, rfl, ?_⟩
    rw [due, all, ← List.countP_eq_length_filter]
    exact (Nat.add_assoc ..).symm
  | some entry =>
    obtain ⟨id, frame⟩ := entry
    obtain ⟨point, before, rest, cut, none⟩ := List.find?_eq_some_iff_append.mp search
    have none' : ∀ entry ∈ before, IsSyncPoint entry = false := fun entry member => by simpa using none entry member
    have ordered := Std.ExtTreeMap.ordered_keys_toList (t := r.frames)
    rw [cut] at ordered
    have front : r.frames.toList.takeWhile (fun entry => !IsSyncPoint entry) = before := by
      rw [cut, List.takeWhile_append_of_pos fun entry member => by rw [none' entry member]; rfl,
        List.takeWhile_cons_of_neg (by simp [point]), List.append_nil]
    rw [start, cut, resync_of_first none' point fun entry member =>
      (List.pairwise_append.mp ordered).2.2 entry member _ List.mem_cons_self]
    refine .inr ⟨id, frame, rfl, rfl, rfl, ?_⟩
    rw [due, front, ← List.countP_eq_length_filter]
    simp only [VideoTransportStats.counted]
    omega

private theorem kept_inOrder (books : Kept first r ledger) (kept : r.stats.synchronized = true) (atUs : ℤ) :
    ((∀ entry ∈ r.handedOn atUs, entry.2.counted + first.toNat = entry.1.frameId.toNat + 1) ↔
      ledger.Balances r (.drain atUs)) ∧
      Kept first (r.drainCompleteFrames atUs).1 (ledger.next r (.drain atUs)) := by
  obtain ⟨none, next⟩ := books.inOrder kept
  have counted := books.counted
  rw [none, Nat.add_zero] at counted
  obtain ⟨total, next'⟩ := @counted_drain r atUs _ kept next
  rw [Ledger.next, if_pos kept, Ledger.Balances, if_pos kept]
  refine ⟨exact_drain books.labelled kept counted next, Receiver.labelled_drain books.labelled atUs, ?_,
    fun still => ⟨rfl, ?_⟩⟩
  · rw [total]
    dsimp only
    omega
  · rw [next']

private theorem kept_outage (books : Kept first r ledger) (lost : r.stats.synchronized = false) (atUs : ℤ) :
    ((∀ entry ∈ r.handedOn atUs, entry.2.counted + first.toNat = entry.1.frameId.toNat + 1) ↔
      ledger.Balances r (.drain atUs)) ∧
      (ledger.Balances r (.drain atUs) →
        Kept first (r.drainCompleteFrames atUs).1 (ledger.next r (.drain atUs))) := by
  have labelled := Receiver.labelled_drain books.labelled atUs
  have counted := books.counted
  have closed : ¬r.stats.synchronized = true := by simp [lost]
  rw [Ledger.next, if_neg closed, Ledger.Balances, if_neg closed, handedOn, if_neg closed]
  rcases outage_drain atUs lost with
    ⟨search, silent, lost', _, total⟩ | ⟨id, frame, search, frames, next, total⟩
  · rw [search, silent]
    refine ⟨by simp, fun _ => ⟨labelled, ?_, fun still => ?_⟩⟩
    · rw [total]
      dsimp only
      omega
    · rw [lost'] at still
      contradiction
  · -- the keyframe is counted behind whatever was given up since the cursor stands
    have label := (books.labelled id frame
      (Std.ExtTreeMap.mem_toList_iff_getElem?_eq_some.mp (List.mem_of_find?_eq_some search))).1
    rw [search, frames, List.map_singleton, List.forall_mem_singleton, label, total]
    simp only [Option.mem_some_iff, forall_eq']
    constructor
    · constructor <;> intro balance <;> omega
    · intro balance
      refine ⟨labelled, ?_, fun _ => ⟨rfl, ?_⟩⟩
      · rw [total]
        dsimp only
        omega
      · rw [next, label, UInt32.ofNat_add, UInt32.ofNat_toNat]
        rfl

/-- What a step hands on is the last that is counted exactly when the step balances; then the books are
kept. -/
theorem kept_step (rtc : Rtc) (books : Kept first r ledger) (event : ReceiverEvent) :
    ((∀ atUs, event = .drain atUs → ∀ entry ∈ r.handedOn atUs,
        entry.2.counted + first.toNat = entry.1.frameId.toNat + 1) ↔ ledger.Balances r event) ∧
      (ledger.Balances r event → Kept first (r.step rtc event).1 (ledger.next r event)) := by
  rcases Receiver.drain_or_other event with ⟨atUs, rfl⟩ | other
  · have step : ((∀ entry ∈ r.handedOn atUs, entry.2.counted + first.toNat = entry.1.frameId.toNat + 1) ↔
        ledger.Balances r (.drain atUs)) ∧ (ledger.Balances r (.drain atUs) →
          Kept first (r.drainCompleteFrames atUs).1 (ledger.next r (.drain atUs))) := by
      cases flag : r.stats.synchronized with
      | true => exact (kept_inOrder books flag atUs).imp_right fun kept _ => kept
      | false => exact kept_outage books flag atUs
    refine ⟨Iff.trans ⟨fun each => each atUs rfl, fun each _ same => ?_⟩ step.1, step.2⟩
    cases same
    exact each
  · have same : ledger.next r event = ledger ∧ ledger.Balances r event := by
      cases event with
      | drain atUs => exact absurd rfl (other atUs)
      | _ => exact ⟨rfl, trivial⟩
    refine ⟨iff_of_true (fun atUs drain => absurd drain (other atUs)) same.2, fun _ => ?_⟩
    rw [same.1]
    refine ⟨Receiver.labelled_step rtc books.labelled event, ?_, fun still => ?_⟩
    · rw [counted_step rtc r other]
      exact books.counted
    · obtain ⟨was, _, cursor⟩ := Receiver.step_synchronized_of_ne_drain other still
      exact ⟨(books.inOrder was).1, cursor _ (books.inOrder was).2⟩

/-! ## Runs -/

theorem kept_new (recoveryTimeoutMs : ℤ) (first : UInt32) :
    Kept first (.new recoveryTimeoutMs) ⟨first.toNat, 0⟩ := by
  refine ⟨Receiver.labelled_new recoveryTimeoutMs, Nat.zero_add _, fun kept => ?_⟩
  simp [Receiver.new] at kept

private theorem exactAccounting_cons {event : ReceiverEvent} {events : List ReceiverEvent} :
    ExactAccounting rtc first r (event :: events) ↔
      (∀ atUs, event = .drain atUs → ∀ entry ∈ r.handedOn atUs,
        entry.2.counted + first.toNat = entry.1.frameId.toNat + 1) ∧
      ExactAccounting rtc first (r.step rtc event).1 events := by
  constructor
  · refine fun all => ⟨?_, fun before atUs after cut => all (event :: before) atUs after (by rw [cut]; rfl)⟩
    rintro atUs rfl
    exact all [] atUs events rfl
  · rintro ⟨here, later⟩ before atUs after cut
    cases before with
    | nil =>
      obtain ⟨same, _⟩ := List.cons.inj cut
      exact here atUs same
    | cons second before =>
      obtain ⟨rfl, behind⟩ := List.cons.inj cut
      exact later before atUs after behind

private theorem exactAccounting_iff (books : Kept first r ledger) (past : List Output)
    (events : List ReceiverEvent) : ExactAccounting rtc first r events ↔
      (ledgerMachine rtc).Everywhere (fun _ s event => s.2.Balances s.1 event) past (r, ledger) events := by
  induction events generalizing r ledger past with
  | nil => exact iff_of_true (fun before atUs after cut => by simp at cut) trivial
  | cons event events ih =>
    obtain ⟨each, books'⟩ := kept_step rtc books event
    rw [exactAccounting_cons, each, Transducer.everywhere_cons]
    exact and_congr_right fun balances => ih (books' balances) _

/-- The frames counted whenever a frame is handed on are those from the first one up to it exactly when the
ledger balances at every drain. -/
theorem accounting_exact_iff (rtc : Rtc) (recoveryTimeoutMs : ℤ) (first : UInt32) (calls : List ReceiverCall) :
    ExactAccounting rtc first (.new recoveryTimeoutMs) (runEvents rtc calls) ↔
      Balanced rtc first (.new recoveryTimeoutMs) (runEvents rtc calls) :=
  exactAccounting_iff (kept_new recoveryTimeoutMs first) [] _

end WeakNetVideo
