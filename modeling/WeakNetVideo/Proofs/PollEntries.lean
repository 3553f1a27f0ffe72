import WeakNetVideo.Proofs.ReceiverInvariants

/-! # Entries and polls

A poll asks for the packets of every buffered frame for which a NACK is due, and notes the time in its entry.
Whatever the event, an entry behind it was there before, with the same packets or one more, or is new.
-/

namespace WeakNetVideo

namespace Receiver

variable {rtc : Rtc} {r : Receiver} {atUs : ℤ} {id : UInt32} {frame : FrameAssembly}
  {entries : List (UInt32 × FrameAssembly)}

/-- The poll asks for the packets of a frame. -/
def asks (r : Receiver) (atUs : ℤ) (frame : FrameAssembly) : Bool :=
  !(frame.packetCount = 0 || frame.complete) && r.nackDue atUs frame

/-- The entry that a poll leaves. -/
def polledEntry (r : Receiver) (atUs : ℤ) (frame : FrameAssembly) : FrameAssembly :=
  if r.asks atUs frame then { frame with lastNackUs := atUs } else frame

/-- What a poll sends for a frame. -/
def polledNack (r : Receiver) (atUs : ℤ) (frame : FrameAssembly) : Option Message :=
  if r.asks atUs frame then sendNack frame else none

/-- What is due depends on the timeout only. -/
private theorem asks_congr {s : Receiver} (same : s.recoveryTimeoutUs = r.recoveryTimeoutUs) :
    s.asks atUs = r.asks atUs := by
  funext frame
  rw [asks, asks, nackDue, nackDue, same]

/-- One turn of the poll polls one entry. -/
private theorem pollFrame_spec (found : r.frames[id]? = some frame) :
    (r.pollFrame atUs (id, frame)).2 = r.polledNack atUs frame ∧
      (r.pollFrame atUs (id, frame)).1.asks = r.asks ∧
      (r.pollFrame atUs (id, frame)).1.frames[id]? = some (r.polledEntry atUs frame) ∧
      ∀ other : UInt32, id ≠ other → (r.pollFrame atUs (id, frame)).1.frames[other]? = r.frames[other]? := by
  rw [polledNack, polledEntry]
  by_cases asked : r.asks atUs frame = true
  · rw [if_pos asked, if_pos asked]
    simp only [asks, Bool.and_eq_true, Bool.not_eq_true', Bool.or_eq_false_iff, decide_eq_false_iff_not] at asked
    obtain ⟨⟨opened, incomplete⟩, due⟩ := asked
    rw [pollFrame, if_neg (by simp [opened, incomplete]), if_pos due]
    exact ⟨rfl, funext fun _ => asks_congr rfl, Std.ExtTreeMap.getElem?_insert_self,
      fun other apart => OrderedMap.get_insert_of_ne apart⟩
  · rw [if_neg asked, if_neg asked]
    have silent : r.pollFrame atUs (id, frame) = (r, none) := by
      simp only [asks, Bool.and_eq_true, Bool.not_eq_true', Bool.or_eq_false_iff, decide_eq_false_iff_not] at asked
      rw [pollFrame]
      by_cases idle : frame.packetCount = 0 ∨ frame.complete = true
      · exact if_pos idle
      · have opened := not_or.mp idle
        rw [if_neg idle, if_neg fun due => asked ⟨⟨opened.1, Bool.eq_false_of_not_eq_true opened.2⟩, due⟩]
    rw [silent]
    exact ⟨rfl, rfl, found, fun _ _ => rfl⟩

/-- Every entry is polled by itself. -/
private theorem pollFrames_spec (distinct : (entries.map Prod.fst).Nodup)
    (found : ∀ entry ∈ entries, r.frames[entry.1]? = some entry.2) :
    (pollFrames atUs entries r).2 = entries.filterMap (fun entry => r.polledNack atUs entry.2) ∧
      (∀ entry ∈ entries, (pollFrames atUs entries r).1.frames[entry.1]? = some (r.polledEntry atUs entry.2)) ∧
      ∀ id : UInt32, id ∉ entries.map Prod.fst → (pollFrames atUs entries r).1.frames[id]? = r.frames[id]? := by
  induction entries generalizing r with
  | nil => exact ⟨rfl, fun _ member => absurd member List.not_mem_nil, fun _ _ => rfl⟩
  | cons entry rest ih =>
    obtain ⟨id, frame⟩ := entry
    rw [List.map_cons, List.nodup_cons] at distinct
    obtain ⟨here, there⟩ := List.forall_mem_cons.mp found
    obtain ⟨nack, same, own, others⟩ := @pollFrame_spec r atUs id frame here
    have apart : ∀ entry ∈ rest, id ≠ entry.1 := fun entry member same =>
      distinct.1 (List.mem_map.mpr ⟨entry, member, same.symm⟩)
    obtain ⟨nacks, polled, outside⟩ := @ih (r.pollFrame atUs (id, frame)).1 distinct.2 fun entry member => by
      rw [others entry.1 (apart entry member)]
      exact there entry member
    have sameNack : (r.pollFrame atUs (id, frame)).1.polledNack = r.polledNack := by
      funext atUs frame
      rw [polledNack, polledNack, same]
    have sameEntry : (r.pollFrame atUs (id, frame)).1.polledEntry = r.polledEntry := by
      funext atUs frame
      rw [polledEntry, polledEntry, same]
    rw [sameNack] at nacks
    rw [sameEntry] at polled
    rw [List.forall_mem_cons, List.filterMap_cons]
    simp only [pollFrames]
    refine ⟨?_, ⟨?_, polled⟩, ?_⟩
    · rw [nack, nacks]
      cases r.polledNack atUs frame <;> rfl
    · rw [outside id distinct.1, own]
    · intro other missing
      rw [List.map_cons, List.mem_cons, not_or] at missing
      rw [outside other missing.2, others other fun same => missing.1 same.symm]

/-- A poll goes through the buffer, entry by entry. -/
private theorem polled_toList (r : Receiver) (atUs : ℤ) :
    (pollFrames atUs r.frames.toList r).2 = r.frames.toList.filterMap (fun entry => r.polledNack atUs entry.2) ∧
      ∀ entry ∈ r.frames.toList,
        (pollFrames atUs r.frames.toList r).1.frames[entry.1]? = some (r.polledEntry atUs entry.2) := by
  have distinct : (r.frames.toList.map Prod.fst).Nodup := by
    rw [List.Nodup, List.pairwise_map]
    exact Std.ExtTreeMap.distinct_keys_toList.imp fun apart same => apart (Std.compare_eq_iff_eq.mpr same)
  obtain ⟨nacks, polled, -⟩ := @pollFrames_spec r atUs r.frames.toList distinct fun entry inside =>
    Std.ExtTreeMap.mem_toList_iff_getElem?_eq_some.mp inside
  exact ⟨nacks, polled⟩

/-- What a poll sends is what it asks for, over the whole buffer. -/
theorem mem_poll_sent (r : Receiver) (atUs : ℤ) (nack : Message) :
    nack ∈ (r.poll atUs).2.sent ↔ r.receiverSend = true ∧
      ∃ (id : UInt32) (frame : FrameAssembly), r.frames[id]? = some frame ∧ r.polledNack atUs frame = some nack := by
  rw [poll]
  split_ifs with bound
  · rw [receiverPoll]
    simp only [(polled_toList r atUs).1, List.mem_filterMap, Prod.exists, bound, true_and,
      Std.ExtTreeMap.mem_toList_iff_getElem?_eq_some]
  · simp [bound]

/-- A poll polls every buffered entry. -/
theorem poll_spec (bound : r.receiverSend = true) (found : r.frames[id]? = some frame) :
    (r.poll atUs).1.frames[id]? = some (r.polledEntry atUs frame) ∧
      ∀ nack ∈ r.polledNack atUs frame, nack ∈ (r.poll atUs).2.sent := by
  refine ⟨?_, fun nack asked => (mem_poll_sent r atUs nack).mpr ⟨bound, id, frame, found, asked⟩⟩
  rw [poll, if_pos bound]
  exact (polled_toList r atUs).2 _ (Std.ExtTreeMap.mem_toList_iff_getElem?_eq_some.mpr found)

/-- A frame that is asked for has empty slots to name. -/
theorem sendNack_of_incomplete (slots : frame.packets.length = frame.packetCount.toNat)
    (opened : frame.packetCount ≠ 0) (incomplete : frame.complete = false) : ∃ nack, sendNack frame = some nack := by
  have empty : ∃ i < frame.packetCount.toNat, (frame.packets.getD i none).isNone := by
    by_contra full
    rw [FrameAssembly.complete, if_neg (by simp [opened, slots]), List.all_eq_false] at incomplete
    obtain ⟨slot, member, vacant⟩ := incomplete
    obtain ⟨i, inside, there⟩ := List.mem_iff_getElem.mp member
    apply full
    refine ⟨i, slots ▸ inside, ?_⟩
    rw [← List.getElem_eq_getD (h := inside), there]
    exact Option.isNone_iff_eq_none.mpr (Option.not_isSome_iff_eq_none.mp vacant)
  obtain ⟨i, inside, vacant⟩ := empty
  have missing : (missingSequences frame).isEmpty = false := by
    rw [List.isEmpty_eq_false_iff]
    exact List.ne_nil_of_mem (List.mem_map_of_mem (List.mem_filter.mpr ⟨List.mem_range.mpr inside, vacant⟩))
  refine ⟨nackMessage (nackGroups (missingSequences frame)), ?_⟩
  rw [sendNack]
  simp only [missing, Bool.false_eq_true, if_false]

/-- An assembly that goes on: opened at the same time, for as many packets, and whole if it was. -/
structure GoesOn (before after : FrameAssembly) : Prop where
  firstSeenUs : after.firstSeenUs = before.firstSeenUs
  packetCount : after.packetCount = before.packetCount
  lastNackUs : after.lastNackUs = before.lastNackUs
  complete : before.complete = true → after.complete = true

theorem GoesOn.refl (frame : FrameAssembly) : GoesOn frame frame := ⟨rfl, rfl, rfl, id⟩

/-- A whole assembly has no slot to fill. -/
private theorem goesOn_fillSlot (metadata : FrameMetadata) (message : Message) (frame : FrameAssembly) :
    GoesOn frame (fillSlot metadata message frame) := by
  refine ⟨rfl, rfl, rfl, fun whole => ?_⟩
  have same : (fillSlot metadata message frame).packets = frame.packets := by
    rw [FrameAssembly.complete] at whole
    split_ifs at whole
    rw [fillSlot]
    split_ifs with filled
    · rfl
    · apply List.set_eq_of_length_le
      by_contra inside
      have there := List.all_eq_true.mp whole _ (List.getElem_mem (Nat.lt_of_not_le inside))
      rw [← List.getElem_eq_getD (h := Nat.lt_of_not_le inside)] at filled
      exact filled there
  have count : (fillSlot metadata message frame).packetCount = frame.packetCount := rfl
  rw [FrameAssembly.complete, same, count]
  exact whole

/-- An entry behind any event was there before, or a poll has just asked for it, or a packet has just opened
it. -/
theorem entry_origin (rtc : Rtc) (wellFormed : r.WellFormed) (event : ReceiverEvent)
    (found : (r.step rtc event).1.frames[id]? = some frame) :
    (∃ before, r.frames[id]? = some before ∧ GoesOn before frame) ∨
      (∃ atUs before, event = .poll atUs ∧ r.receiverSend = true ∧ r.frames[id]? = some before ∧
        r.asks atUs before = true ∧ frame = { before with lastNackUs := atUs }) ∨
      (frame.lastNackUs = 0 ∧ ∃ message, event = .packet frame.firstSeenUs message) := by
  cases event with
  | bindSend => exact .inl ⟨frame, found, .refl frame⟩
  | recordPliSent => exact .inl ⟨frame, found, .refl frame⟩
  | invalidateSync => simp [step, invalidateSync] at found
  | drain atUs => exact .inl ⟨frame, (drain_spec r atUs).2.2.1 id frame found, .refl frame⟩
  | poll atUs =>
    obtain ⟨before, nackUs, present, -⟩ := (poll_polled r atUs).get found
    by_cases bound : r.receiverSend = true
    · have polled := (@poll_spec r atUs id before bound present).1
      obtain rfl := Option.some.inj (found.symm.trans polled)
      rw [polledEntry]
      split_ifs with asked
      · exact .inr (.inl ⟨atUs, before, rfl, bound, present, asked, rfl⟩)
      · exact .inl ⟨before, present, .refl before⟩
    · rw [step, poll, if_neg bound] at found
      exact .inl ⟨frame, found, .refl frame⟩
  | packet atUs message =>
    cases valid : validMetadata rtc message with
    | none =>
      rw [step, processReceiverPacket_of_invalid valid] at found
      exact .inl ⟨frame, found, .refl frame⟩
    | some metadata =>
      rcases get_processReceiverPacket valid found with ⟨adopted, -⟩ | ⟨rfl, -⟩ | ⟨rfl, -, rfl⟩
      · exact .inl ⟨frame, (get_adoptEpoch adopted).1, .refl frame⟩
      · exact .inr (.inr ⟨rfl, message, rfl⟩)
      · cases present : (r.adoptEpoch metadata).frames[metadata.frameId]? with
        | none =>
          rw [assemblyFor_of_none present]
          exact .inr (.inr ⟨rfl, message, rfl⟩)
        | some before =>
          have there := (get_adoptEpoch present).1
          rw [assemblyFor_of_get present (wellFormed.seen _ _ there)]
          exact .inl ⟨before, there, goesOn_fillSlot metadata message before⟩

end Receiver

end WeakNetVideo
