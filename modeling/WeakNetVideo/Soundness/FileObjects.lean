import WeakNetVideo.Model.FileObjects

/-! # The file reader frees what it makes

The set of the reader's pointers that hold an object is followed through its code, behind every return and every
exception, and then through the runs of its callers.
-/

namespace WeakNetVideo

set_option mvcgen.warning false

open Std.Do Owning Reading

variable {ffmpegError : ℤ → String} {slots : Finset ReaderSlot} {members : ReaderMembers}

/-- What an open file needs. -/
def fileSlots : Finset ReaderSlot := {.formatContext, .decoderContext, .decodedFrame}

/-- What a configured encoder needs. -/
def encoderSlots : Finset ReaderSlot := {.encoderContext, .scaledFrame}

/-- Two sets are the same outside a third. -/
def SameOutside (changed left slots : Finset ReaderSlot) : Prop := ∀ slot ∉ changed, slot ∈ left ↔ slot ∈ slots

/-! ## The parts of the code -/

namespace Reading

/-- What a reader holds, and whether it takes its encoder for configured. -/
def Holding (slots : Finset ReaderSlot) (configured : Bool) (h : Holder ReaderSlot ReaderMembers) : Prop :=
  ∃ after, h.Owns slots after ∧ after.encoderConfigured = configured

/-- A rule for all members is one for what is held. -/
theorem holding_of_owns {α : Type} {code : Reading α} {configured : Bool}
    {Q : PostCond α (.except String (.arg (Holder ReaderSlot ReaderMembers) .pure))}
    (body : ∀ members, members.encoderConfigured = configured → ⦃fun h => ⌜h.Owns slots members⌝⦄ code ⦃Q⦄) :
    ⦃fun h => ⌜Holding slots configured h⌝⦄ code ⦃Q⦄ := by
  intro h ⟨members, owns, same⟩
  exact body members same h owns

@[spec] theorem checkFfmpeg_spec (result : ℤ) (operation : String) :
    ⦃fun h => ⌜h.Owns slots members⌝⦄ checkFfmpeg ffmpegError result operation
    ⦃post⟨fun _ h => ⌜h.Owns slots members⌝, fun _ h => ⌜h.Owns slots members⌝⟩⦄ := by
  mvcgen [checkFfmpeg]

/-- Behind an exception the demuxer and the decoder may be left. -/
@[spec] theorem openFile_spec (path : String) (reply : OpenReply) :
    ⦃fun h => ⌜h.Owns ∅ members⌝⦄ openFile ffmpegError path reply
    ⦃post⟨fun _ h => ⌜Holding fileSlots members.encoderConfigured h⌝,
      fun _ h => ⌜∃ left ⊆ {.formatContext, .decoderContext}, Holding left members.encoderConfigured h⌝⟩⦄ := by
  have all : insert .decodedFrame (insert .decoderContext (insert .formatContext ∅)) = fileSlots := by decide
  mvcgen [openFile]
  -- an empty pointer for each allocation, then what is left behind each exception and the return
  all_goals first
    | decide
    | exact fun owns => ⟨_, by decide, _, owns, rfl⟩
    | exact fun owns => all ▸ ⟨_, owns, rfl⟩

@[spec] theorem closeEncoder_spec :
    ⦃fun h => ⌜h.Owns slots members⌝⦄ closeEncoder
    ⦃⇓ _ h => ⌜h.Owns ((slots.erase .scaledFrame).erase .encoderContext)
      { members with encoderConfigured := false }⌝⦄ := by
  obtain ⟨slots, rfl⟩ := behind slots
  obtain ⟨members, rfl⟩ := behind members
  mvcgen [closeEncoder]

/-- Whatever is held, nothing is held behind `close`. -/
@[spec] theorem close_spec (noPacket : .packet ∉ slots) :
    ⦃fun h => ⌜h.Owns slots members⌝⦄ close
    ⦃⇓ _ h => ⌜Holding ∅ false h⌝⦄ := by
  obtain ⟨slots, rfl⟩ := behind slots
  obtain ⟨members, rfl⟩ := behind members
  mvcgen [close]
  have all : (((((((slots ()).erase .scaledFrame).erase .encoderContext).erase .swsContext).erase
      .decodedFrame).erase .decoderContext).erase .formatContext) = ∅ := by
    apply Finset.eq_empty_of_forall_notMem
    intro slot
    cases slot <;> simp [noPacket]
  exact fun owns => ⟨_, all ▸ owns, rfl⟩

/-- The encoder is there as a whole, or the reader knows that it is not. -/
@[spec] theorem configureEncoder_spec (profile : VideoProfile) (reply : EncoderOpenReply) :
    ⦃fun h => ⌜h.Owns slots members⌝⦄ configureEncoder ffmpegError profile reply
    ⦃post⟨fun _ h => ⌜∃ left, Holding left true h ∧ SameOutside encoderSlots left slots ∧ encoderSlots ⊆ left⌝,
      fun _ h => ⌜∃ left, Holding left false h ∧ SameOutside encoderSlots left slots⌝⟩⦄ := by
  obtain ⟨slots, rfl⟩ := behind slots
  obtain ⟨members, rfl⟩ := behind members
  mvcgen [configureEncoder]
  all_goals first
    | exact fun owns => ⟨_, ⟨_, owns, rfl⟩, by intro slot; cases slot <;> simp [encoderSlots]⟩
    | exact fun owns => ⟨_, ⟨_, owns, rfl⟩, by intro slot; cases slot <;> simp [encoderSlots],
        by intro slot; cases slot <;> simp [encoderSlots]⟩
    | simp

@[spec] theorem prepare_spec (profile : VideoProfile) (reply : EncoderOpenReply)
    (configured : members.encoderConfigured → encoderSlots ⊆ slots) :
    ⦃fun h => ⌜h.Owns slots members⌝⦄ prepare ffmpegError members profile reply
    ⦃post⟨fun _ h => ⌜∃ left, Holding left true h ∧ SameOutside encoderSlots left slots ∧ encoderSlots ⊆ left⌝,
      fun _ h => ⌜∃ left, Holding left false h ∧ SameOutside encoderSlots left slots⌝⟩⦄ := by
  obtain ⟨slots, rfl⟩ := behind slots
  obtain ⟨members, rfl⟩ := behind members
  mvcgen [prepare]
  -- the branch without a new encoder: its guard says that there is one
  rename_i kept h owns
  have set : (members ()).encoderConfigured = true := by
    by_contra unset
    exact kept (.inl (by simpa using unset))
  exact ⟨slots (), ⟨members (), owns, set⟩, fun _ _ => Iff.rfl, configured set⟩

@[spec] theorem readOver_spec (others : ℕ) (needed : {.formatContext, .packet} ⊆ slots) :
    ⦃fun h => ⌜h.Owns slots members⌝⦄ readOver others ⦃⇓ _ h => ⌜h.Owns slots members⌝⦄ := by
  have format : .formatContext ∈ slots := needed (by decide)
  have packet : .packet ∈ slots := needed (by decide)
  induction others with
  | zero => mvcgen [readOver]
  | succ others ih => mvcgen [readOver, ih]

@[spec] theorem flush_spec (reply : DecodeReply) (file : fileSlots ⊆ slots) :
    ⦃fun h => ⌜h.Owns slots members⌝⦄ flush ffmpegError reply
    ⦃post⟨fun _ h => ⌜Holding slots members.encoderConfigured h⌝,
      fun _ h => ⌜Holding slots members.encoderConfigured h⌝⟩⦄ := by
  obtain ⟨members, rfl⟩ := behind members
  have decoder : .decoderContext ∈ slots := file (by decide)
  mvcgen [flush]
  all_goals exact fun owns => ⟨_, owns, rfl⟩

/-- The packet is freed behind every return and every exception. -/
@[spec] theorem feed_spec (reply : DecodeReply) (file : fileSlots ⊆ slots) (noPacket : .packet ∉ slots) :
    ⦃fun h => ⌜h.Owns slots members⌝⦄ feed ffmpegError reply
    ⦃post⟨fun _ h => ⌜Holding slots members.encoderConfigured h⌝,
      fun _ h => ⌜Holding slots members.encoderConfigured h⌝⟩⦄ := by
  obtain ⟨slots, rfl⟩ := behind slots
  obtain ⟨members, rfl⟩ := behind members
  have freed : (insert .packet (slots ())).erase .packet = slots () := Finset.erase_insert noPacket
  have needed : {.formatContext, .packet} ⊆ insert .packet (slots ()) :=
    Finset.insert_subset (Finset.mem_insert_of_mem (file (by decide))) (by simp)
  mvcgen [feed]
  -- the pointers in use; where the code ends, the packet is freed or was never made
  all_goals first
    | assumption
    | exact Finset.mem_insert_self ..
    | exact Finset.mem_insert_of_mem (file (by decide))
    | exact fun owns => ⟨_, owns, rfl⟩
    | (intro owns; rw [freed] at owns; exact ⟨_, owns, rfl⟩)

theorem decodeTurn_spec (known : ReaderMembers) (reply : DecodeReply) (file : fileSlots ⊆ slots)
    (noPacket : .packet ∉ slots) :
    ⦃fun h => ⌜h.Owns slots members⌝⦄ decodeTurn ffmpegError known reply
    ⦃post⟨fun _ h => ⌜Holding slots members.encoderConfigured h⌝,
      fun _ h => ⌜Holding slots members.encoderConfigured h⌝⟩⦄ := by
  obtain ⟨members, rfl⟩ := behind members
  obtain ⟨known, rfl⟩ := behind known
  have decoder : .decoderContext ∈ slots := file (by decide)
  have frame : .decodedFrame ∈ slots := file (by decide)
  mvcgen [decodeTurn]
  all_goals first
    | exact fun owns => ⟨_, owns, rfl⟩
    | exact ⟨_, ‹_›, rfl⟩

@[spec] theorem getCachedContext_spec (reply : TranscodeReply) :
    ⦃fun h => ⌜h.Owns slots members⌝⦄ getCachedContext reply
    ⦃post⟨fun _ h => ⌜h.Owns (insert .swsContext slots) members⌝,
      fun _ h => ⌜h.Owns (slots.erase .swsContext) members⌝⟩⦄ := by
  obtain ⟨slots, rfl⟩ := behind slots
  obtain ⟨members, rfl⟩ := behind members
  mvcgen [getCachedContext]
  -- the scaler there is stays; another one is made behind the release of whatever there was
  case vc5 => simp_all
  case vc8 => simp_all
  case vc12 result _ _ _ _ _ owns => cases result <;> simpa using owns
  case vc13 =>
    have same : insert .swsContext ((slots ()).erase .swsContext) = insert ReaderSlot.swsContext (slots ()) := by
      ext slot
      cases slot <;> simp
    exact fun owns => same ▸ owns
  case vc14 => simp

theorem encodeFrame_spec (reply : TranscodeReply) (needed : fileSlots ∪ encoderSlots ⊆ slots) :
    ⦃fun h => ⌜h.Owns slots members⌝⦄ encodeFrame ffmpegError reply
    ⦃post⟨fun _ h => ⌜∃ left, h.Owns left members ∧ SameOutside {.swsContext} left slots⌝,
      fun _ h => ⌜∃ left, h.Owns left members ∧ SameOutside {.swsContext} left slots⌝⟩⦄ := by
  obtain ⟨slots, rfl⟩ := behind slots
  obtain ⟨members, rfl⟩ := behind members
  mvcgen [encodeFrame]
  all_goals first
    | exact needed (by decide)
    | exact Finset.mem_insert_self ..
    | exact Finset.mem_insert_of_mem (needed (by decide))
    | exact fun owns => ⟨_, owns, by intro slot; cases slot <;> simp⟩

theorem receivePacket_spec (reply : TranscodeReply) (encoder : encoderSlots ⊆ slots)
    (noPacket : .packet ∉ slots) :
    ⦃fun h => ⌜h.Owns slots members⌝⦄ receivePacket ffmpegError reply
    ⦃post⟨fun _ h => ⌜h.Owns slots members⌝, fun _ h => ⌜h.Owns slots members⌝⟩⦄ := by
  obtain ⟨slots, rfl⟩ := behind slots
  obtain ⟨members, rfl⟩ := behind members
  have freed : (insert .packet (slots ())).erase .packet = slots () := Finset.erase_insert noPacket
  mvcgen [receivePacket]
  all_goals first
    | assumption
    | exact Finset.mem_insert_self ..
    | exact Finset.mem_insert_of_mem (encoder (by decide))
    | (rw [← freed]; assumption)

/-! ## Between the turns -/

/-- What the turns of `next_frame` need, and no packet. -/
structure Ready (slots : Finset ReaderSlot) : Prop where
  needed : fileSlots ∪ encoderSlots ⊆ slots
  noPacket : .packet ∉ slots

theorem Ready.file (ready : Ready slots) : fileSlots ⊆ slots := Finset.union_subset_left ready.needed

theorem Ready.encoder (ready : Ready slots) : encoderSlots ⊆ slots := Finset.union_subset_right ready.needed

theorem Ready.scaler {left : Finset ReaderSlot} (ready : Ready slots) (same : SameOutside {.swsContext} left slots) :
    Ready left := by
  have apart : ∀ slot ∈ fileSlots ∪ encoderSlots, slot ∉ ({.swsContext} : Finset ReaderSlot) := by decide
  exact ⟨fun slot inside => (same slot (apart slot inside)).mpr (ready.needed inside),
    fun packet => ready.noPacket ((same .packet (by decide)).mp packet)⟩

/-- What holds between the turns. -/
def Keeping (configured : Bool) (h : Holder ReaderSlot ReaderMembers) : Prop :=
  ∃ left, Holding left configured h ∧ Ready left

variable {configured : Bool}

private theorem keeps {α : Type} {code : Reading α}
    {Q : PostCond α (.except String (.arg (Holder ReaderSlot ReaderMembers) .pure))}
    (body : ∀ slots members, Ready slots → members.encoderConfigured = configured →
      ⦃fun h => ⌜h.Owns slots members⌝⦄ code ⦃Q⦄) : ⦃fun h => ⌜Keeping configured h⌝⦄ code ⦃Q⦄ := by
  intro h ⟨slots, ⟨members, owns, same⟩, ready⟩
  exact body slots members ready same h owns

theorem use_keeps {slot : ReaderSlot} (inside : slot ∈ fileSlots ∪ encoderSlots) :
    ⦃fun h => ⌜Keeping configured h⌝⦄ (use slot : Reading Unit)
    ⦃post⟨fun _ h => ⌜Keeping configured h⌝, fun _ h => ⌜Keeping configured h⌝⟩⦄ := by
  apply keeps
  intro slots members ready same
  mvcgen
  · exact fun owns => ⟨slots, ⟨members, owns, same⟩, ready⟩
  · exact fun _ _ => ready.needed inside

theorem decodeTurn_keeps (known : ReaderMembers) (reply : DecodeReply) :
    ⦃fun h => ⌜Keeping configured h⌝⦄ decodeTurn ffmpegError known reply
    ⦃post⟨fun _ h => ⌜Keeping configured h⌝, fun _ h => ⌜Keeping configured h⌝⟩⦄ := by
  apply keeps
  intro slots members ready same
  mvcgen [decodeTurn_spec]
  · exact fun ⟨after, owns, kept⟩ => ⟨slots, ⟨after, owns, kept.trans same⟩, ready⟩
  · exact fun ⟨after, owns, kept⟩ => ⟨slots, ⟨after, owns, kept.trans same⟩, ready⟩
  · exact fun _ _ => ready.file
  · exact fun _ _ => ready.noPacket

theorem encodeFrame_keeps (reply : TranscodeReply) :
    ⦃fun h => ⌜Keeping configured h⌝⦄ encodeFrame ffmpegError reply
    ⦃post⟨fun _ h => ⌜Keeping configured h⌝, fun _ h => ⌜Keeping configured h⌝⟩⦄ := by
  apply keeps
  intro slots members ready same
  mvcgen [encodeFrame_spec]
  · exact fun ⟨left, owns, outside⟩ => ⟨left, ⟨members, owns, same⟩, ready.scaler outside⟩
  · exact fun ⟨left, owns, outside⟩ => ⟨left, ⟨members, owns, same⟩, ready.scaler outside⟩
  · exact fun _ _ => ready.needed

theorem receivePacket_keeps (reply : TranscodeReply) :
    ⦃fun h => ⌜Keeping configured h⌝⦄ receivePacket ffmpegError reply
    ⦃post⟨fun _ h => ⌜Keeping configured h⌝, fun _ h => ⌜Keeping configured h⌝⟩⦄ := by
  apply keeps
  intro slots members ready same
  mvcgen [receivePacket_spec]
  · exact fun owns => ⟨slots, ⟨members, owns, same⟩, ready⟩
  · exact fun owns => ⟨slots, ⟨members, owns, same⟩, ready⟩
  · exact fun _ _ => ready.encoder
  · exact fun _ _ => ready.noPacket

theorem transcodeTurn_keeps (reply : TranscodeReply) :
    ⦃fun h => ⌜Keeping configured h⌝⦄ transcodeTurn ffmpegError reply
    ⦃post⟨fun _ h => ⌜Keeping configured h⌝, fun _ h => ⌜Keeping configured h⌝⟩⦄ := by
  obtain ⟨configured, rfl⟩ := behind configured
  have inside : .decodedFrame ∈ fileSlots ∪ encoderSlots := by decide
  mvcgen [transcodeTurn, encodeFrame_keeps, receivePacket_keeps, -use_spec, use_keeps]

theorem loopTurn_keeps (known : ReaderMembers) (decode : DecodeReply) (transcode : TranscodeReply) :
    ⦃fun h => ⌜Keeping configured h⌝⦄ loopTurn ffmpegError known decode transcode
    ⦃post⟨fun _ h => ⌜Keeping configured h⌝, fun _ h => ⌜Keeping configured h⌝⟩⦄ := by
  obtain ⟨configured, rfl⟩ := behind configured
  mvcgen [loopTurn, decodeTurn_keeps, transcodeTurn_keeps]

/-! ## Nothing is freed where a file is opened -/

theorem openFile_unreleased (path : String) (reply : OpenReply) :
    ⦃fun h => ⌜h.Unreleased⌝⦄ openFile ffmpegError path reply
    ⦃post⟨fun _ h => ⌜h.Unreleased⌝, fun _ h => ⌜h.Unreleased⌝⟩⦄ := by
  mvcgen [openFile, checkFfmpeg, -openFile_spec, -allocate_spec, -use_spec, -throwIf_spec, -checkFfmpeg_spec,
    -setMember_spec, allocate_unreleased, use_unreleased, throwIf_unreleased, setMember_unreleased]

end Reading

/-! ## The life of a reader -/

namespace FileReaderObjects

variable {r : FileReaderObjects}

/-- What a step of the reader comes to is what the triple of its code says. -/
theorem perform_spec {α : Type} {code : Reading α} {before : Holder ReaderSlot ReaderMembers → Prop}
    {ok : α → Holder ReaderSlot ReaderMembers → Prop} {bad : Holder ReaderSlot ReaderMembers → Prop}
    {returned : α → FileReaderObjects → FileReaderObjects} {thrown : FileReaderObjects → FileReaderObjects}
    {after : FileReaderObjects → Prop}
    (triple : ⦃fun h => ⌜before h⌝⦄ code ⦃post⟨fun a h => ⌜ok a h⌝, fun _ h => ⌜bad h⌝⟩⦄)
    (start : before r.objects) (returns : ∀ a h, ok a h → after (returned a { r with objects := h }))
    (throws : ∀ h, bad h → after (thrown { r with objects := h })) : after (r.perform code returned thrown).1 := by
  have ends := ends_of_triple triple start
  rw [perform]
  split
  next a h run =>
    rw [run] at ends
    exact returns a h ends
  next e h run =>
    rw [run] at ends
    exact throws h ends

/-- What a reader holds between the calls and turns. -/
def Sound (r : FileReaderObjects) : Prop :=
  match r.stage with
  | .absent => Reading.Holding ∅ false r.objects ∧ r.objects.Unreleased
  | .failed => (∃ left, Reading.Holding left false r.objects) ∧ r.objects.Unreleased
  | .idle => ∃ left configured, Reading.Holding left configured r.objects ∧ .packet ∉ left ∧
      (r.opened → fileSlots ⊆ left) ∧ (configured → encoderSlots ⊆ left)
  | .reading => r.opened ∧ Reading.Keeping true r.objects
  | .destroyed => Reading.Holding ∅ false r.objects

/-- The file is opened where nothing is held. -/
theorem openFile_fresh (path : String) (reply : OpenReply) :
    ⦃fun h => ⌜Reading.Holding ∅ false h⌝⦄ Reading.openFile ffmpegError path reply
    ⦃post⟨fun _ h => ⌜Reading.Holding fileSlots false h⌝,
      fun _ h => ⌜∃ left, Reading.Holding left false h ∧ .packet ∉ left⌝⟩⦄ := by
  have apart : .packet ∉ ({.formatContext, .decoderContext} : Finset ReaderSlot) := by decide
  apply Reading.holding_of_owns
  intro members unset
  mvcgen [Reading.openFile_spec]
  · exact fun holding => unset ▸ holding
  · exact fun ⟨left, inside, holding⟩ => ⟨left, unset ▸ holding, fun packet => apart (inside packet)⟩

/-- In a constructor, nothing has been freed before. -/
theorem openFile_construct (path : String) (reply : OpenReply) :
    ⦃fun h => ⌜Reading.Holding ∅ false h ∧ h.Unreleased⌝⦄ Reading.openFile ffmpegError path reply
    ⦃post⟨fun _ h => ⌜Reading.Holding fileSlots false h ∧ h.Unreleased⌝,
      fun _ h => ⌜(∃ left, Reading.Holding left false h ∧ .packet ∉ left) ∧ h.Unreleased⌝⟩⦄ :=
  Triple.and _ (openFile_fresh path reply) (Reading.openFile_unreleased path reply)

theorem reset_spec (path : String) (reply : OpenReply) (noPacket : .packet ∉ slots) :
    ⦃fun h => ⌜h.Owns slots members⌝⦄ (do Reading.close; Reading.openFile ffmpegError path reply)
    ⦃post⟨fun _ h => ⌜Reading.Holding fileSlots false h⌝,
      fun _ h => ⌜∃ left, Reading.Holding left false h ∧ .packet ∉ left⌝⟩⦄ := by
  mvcgen [-openFile_spec, openFile_fresh]

private theorem fileSlots_kept {left : Finset ReaderSlot} (same : SameOutside encoderSlots left slots)
    (file : fileSlots ⊆ slots) : fileSlots ⊆ left := by
  have apart : ∀ slot ∈ fileSlots, slot ∉ encoderSlots := by decide
  exact fun slot inside => (same slot (apart slot inside)).mpr (file inside)

private theorem sound_step (path : String) (sound : r.Sound) (call : ReaderCall) (admits : r.Admits call) :
    (r.step ffmpegError path call).1.Sound := by
  cases call with
  | construct reply =>
    rw [step]
    split_ifs with absent
    · rw [Sound, absent] at sound
      apply perform_spec (openFile_construct path reply) sound
      · rintro _ h ⟨holding, -⟩
        exact ⟨fileSlots, false, holding, by decide, fun _ => subset_rfl, fun set => absurd set Bool.false_ne_true⟩
      · rintro h ⟨⟨left, holding, -⟩, unreleased⟩
        exact ⟨⟨left, holding⟩, unreleased⟩
    · exact sound
  | nextFrame profile reply =>
    rw [step]
    split_ifs with idle
    · rw [Sound, idle] at sound
      obtain ⟨slots, configured, ⟨members, owns, rfl⟩, noPacket, file, encoder⟩ := sound
      rw [owns.member]
      apply perform_spec (Reading.prepare_spec profile reply encoder) owns
      · rintro _ h ⟨left, holding, same, encoder⟩
        have file : fileSlots ⊆ left := fileSlots_kept same (file admits)
        exact ⟨admits, left, holding, Finset.union_subset file encoder, (same .packet (by decide)).not.mpr noPacket⟩
      · rintro h ⟨left, holding, same⟩
        change Sound { r with objects := h }
        rw [Sound, idle]
        exact ⟨left, false, holding, (same .packet (by decide)).not.mpr noPacket,
          fun opened => fileSlots_kept same (file opened), fun set => absurd set Bool.false_ne_true⟩
    · exact sound
  | turn decode transcode =>
    rw [step]
    split_ifs with reading
    · rw [Sound, reading] at sound
      obtain ⟨opened, keeping⟩ := sound
      apply perform_spec (Reading.loopTurn_keeps r.objects.member decode transcode) keeping
      · rintro result h ⟨left, holding, ready⟩
        -- a turn that returns ends the call, any other leaves it in its loops
        cases result with
        | some returned => exact ⟨left, true, holding, ready.noPacket, fun _ => ready.file, fun _ => ready.encoder⟩
        | none =>
          change Sound { r with objects := h }
          rw [Sound, reading]
          exact ⟨opened, left, holding, ready⟩
      · rintro h ⟨left, holding, ready⟩
        exact ⟨left, true, holding, ready.noPacket, fun _ => ready.file, fun _ => ready.encoder⟩
    · exact sound
  | reset reply =>
    rw [step]
    split_ifs with idle
    · rw [Sound, idle] at sound
      obtain ⟨slots, configured, ⟨members, owns, -⟩, noPacket, -⟩ := sound
      apply perform_spec (reset_spec path reply noPacket) owns
      · rintro _ h holding
        change Sound { r with objects := h, opened := true }
        rw [Sound, idle]
        exact ⟨fileSlots, false, holding, by decide, fun _ => subset_rfl, fun set => absurd set Bool.false_ne_true⟩
      · rintro h ⟨left, holding, noPacket⟩
        change Sound { r with objects := h, opened := false }
        rw [Sound, idle]
        exact ⟨left, false, holding, noPacket, fun opened => absurd opened Bool.false_ne_true,
          fun set => absurd set Bool.false_ne_true⟩
    · exact sound
  | destroy =>
    rw [step]
    split_ifs with idle
    · rw [Sound, idle] at sound
      obtain ⟨slots, configured, ⟨members, owns, -⟩, noPacket, -⟩ := sound
      apply perform_spec (Reading.close_spec noPacket) owns
      · exact fun _ h holding => holding
      · exact fun h impossible => absurd impossible id
    · exact sound

/-- Whatever its stage, the pointers of a reader own the objects that there are. -/
theorem Sound.owns (sound : r.Sound) : ∃ slots members, r.objects.Owns slots members := by
  rw [Sound] at sound
  split at sound
  · obtain ⟨⟨after, owns, -⟩, -⟩ := sound
    exact ⟨∅, after, owns⟩
  · obtain ⟨⟨left, after, owns, -⟩, -⟩ := sound
    exact ⟨left, after, owns⟩
  · obtain ⟨left, configured, ⟨after, owns, -⟩, -⟩ := sound
    exact ⟨left, after, owns⟩
  · obtain ⟨-, left, ⟨after, owns, -⟩, -⟩ := sound
    exact ⟨left, after, owns⟩
  · obtain ⟨after, owns, -⟩ := sound
    exact ⟨∅, after, owns⟩

end FileReaderObjects

/-- In every run whose caller asks open readers only, no call is handed a null pointer, each object is made once, used
only while it is held and freed once, and just what has been made and not freed is held, each by one pointer. A reader
that is destroyed has freed everything; one whose constructor has thrown, nothing. -/
theorem reader_frees (path : String) (calls : List ReaderCall)
    (admits : (readerObjectsMachine ffmpegError path).Everywhere (fun _ r call => r.Admits call) [] {} calls) :
    let r := (readerObjectsMachine ffmpegError path).final {} calls
    r.objects.usedNull = false ∧ Orderly r.objects.log ∧
      (∀ object, (∃! slot, r.objects.held slot = some object) ↔
        .made object ∈ r.objects.log ∧ .released object ∉ r.objects.log) ∧
      (r.stage = .destroyed → ∀ object, .made object ∈ r.objects.log → .released object ∈ r.objects.log) ∧
      (r.stage = .failed → ∀ object, .released object ∉ r.objects.log) := by
  have sound : FileReaderObjects.Sound ((readerObjectsMachine ffmpegError path).final {} calls) := by
    apply @Transducer.invariant _ _ _ (readerObjectsMachine ffmpegError path) (fun _ r => r.Sound) _
      (fun _ r call sound admits => FileReaderObjects.sound_step path sound call admits) [] {} calls _ admits
    exact ⟨⟨{}, ⟨by simp, .empty, rfl, rfl⟩, rfl⟩, fun object => List.not_mem_nil⟩
  intro r
  obtain ⟨slots, members, owns⟩ := sound.owns
  refine ⟨owns.usedNull, owns.ledger.orderly, fun object => ?_, fun destroyed => ?_, fun failed => ?_⟩
  · rw [← owns.ledger.mem_held_iff, owns.mem_held_iff]
    constructor
    · exact fun ⟨slot, here, _⟩ => ⟨slot, here⟩
    · exact fun ⟨slot, here⟩ => ⟨slot, here, fun other there => owns.injective there here⟩
  · rw [FileReaderObjects.Sound, destroyed] at sound
    obtain ⟨after, owns, -⟩ := sound
    exact fun object => owns.ledger.released_of_empty
  · rw [FileReaderObjects.Sound, failed] at sound
    exact sound.2

/-- A frame is read, the file is opened again, and the reader is destroyed. -/
private def readAgain : List ReaderCall :=
  [.construct ⟨0, 0, 0, true, true, 0, 0, true⟩, .nextFrame {} ⟨true, true, 0, true, 0⟩,
    .turn ⟨averrorEagain, true, 1, 0, 0⟩ ⟨true, false, true, 0, 0, true, 0⟩,
    .turn ⟨0, true, 0, 0, 0⟩ ⟨true, false, true, 0, 0, true, 0⟩,
    .reset ⟨0, 0, 0, true, true, 0, 0, true⟩, .destroy]

/-- Eleven objects are made and freed. -/
theorem reader_frees_readAgain :
    let r := (readerObjectsMachine (fun _ => "") "input.mp4").final {} readAgain
    r.stage = .destroyed ∧ r.objects.nextObject = 11 ∧ r.objects.usedNull = false ∧
      ∀ object, .made object ∈ r.objects.log → .released object ∈ r.objects.log := by
  have opened : ((readerObjectsMachine (fun _ => "") "input.mp4").final {} (readAgain.take 1)).opened = true := by
    decide +kernel
  have stage : ((readerObjectsMachine (fun _ => "") "input.mp4").final {} readAgain).stage = .destroyed := by
    decide +kernel
  have made : ((readerObjectsMachine (fun _ => "") "input.mp4").final {} readAgain).objects.nextObject = 11 := by
    decide +kernel
  obtain ⟨usedNull, -, -, destroyed, -⟩ := @reader_frees (fun _ => "") "input.mp4" readAgain
    ⟨trivial, opened, trivial, trivial, trivial, trivial, trivial⟩
  exact ⟨stage, made, usedNull, destroyed stage⟩

end WeakNetVideo
