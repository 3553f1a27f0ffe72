import WeakNetVideo.Model.CheckedWalkers
import WeakNetVideo.Proofs.HeaderExtension

/-! # The packet walkers are in bounds

With every access checked, the walkers end without a fault on any message, and with what the model says: they
test every length, count and offset that a packet declares before they rely on it.
-/

namespace WeakNetVideo

open BigEndian Bounded

variable {bytes : List Byte} {offset : ℕ}

namespace Checked

/-! ## Headers -/

private theorem version_eq (inside : 0 < bytes.length) : version bytes = .ok (Rtp.version bytes) := by
  rw [version, byteAt_eq inside]
  rfl

private theorem padding_eq (inside : 0 < bytes.length) : padding bytes = .ok (Rtp.padding bytes) := by
  rw [padding, byteAt_eq inside]
  rfl

private theorem extension_eq (inside : 0 < bytes.length) : extension bytes = .ok (Rtp.extension bytes) := by
  rw [extension, byteAt_eq inside]
  rfl

private theorem fixedHeaderSize_eq (inside : 0 < bytes.length) :
    fixedHeaderSize bytes = .ok (Rtp.fixedHeaderSize bytes) := by
  rw [fixedHeaderSize, csrcCount, byteAt_eq inside]
  rfl

private theorem payloadType_eq (inside : 1 < bytes.length) : payloadType bytes = .ok (Rtp.payloadType bytes) := by
  rw [payloadType, byteAt_eq inside]
  rfl

private theorem ssrc_eq (inside : 12 ≤ bytes.length) : ssrc bytes = .ok (Rtp.ssrc bytes) := readU32_eq inside

private theorem profileSpecificId_eq (inside : offset + 2 ≤ bytes.length) :
    profileSpecificId bytes offset = .ok (Rtp.profileSpecificId bytes offset) := readU16_eq inside

private theorem headerLength_eq (inside : offset + 4 ≤ bytes.length) :
    headerLength bytes offset = .ok (Rtp.headerLength bytes offset) := by
  rw [headerLength, readU16_eq (by omega)]
  rfl

private theorem reportCount_eq (inside : offset < bytes.length) :
    reportCount bytes offset = .ok (Rtcp.reportCount bytes offset) := by
  rw [reportCount, byteAt_eq inside]
  rfl

private theorem rtcpType_eq (inside : offset + 1 < bytes.length) :
    rtcpType bytes offset = .ok (Rtcp.payloadType bytes offset) := byteAt_eq inside

private theorem rtcpLength_eq (inside : offset + 4 ≤ bytes.length) :
    rtcpLength bytes offset = .ok (Rtcp.length bytes offset) := by
  rw [rtcpLength, readU16_eq (by omega)]
  rfl

private theorem lengthInBytes_eq (inside : offset + 4 ≤ bytes.length) :
    lengthInBytes bytes offset = .ok (Rtcp.lengthInBytes bytes offset) := by
  rw [lengthInBytes, rtcpLength_eq inside]
  rfl

/-! ## Walks through extension bodies -/

section Walk

variable {σ : Type} {body size : ℕ} {visit : Element → σ → Except Fault (Turn σ)} {state : σ}

/-- The part of a message that is an extension body. -/
private def part (bytes : List Byte) (body size : ℕ) : List Byte := (bytes.drop body).take size

private theorem length_part (fits : body + size ≤ bytes.length) : (part bytes body size).length = size := by
  rw [part, List.length_take, List.length_drop]
  omega

private theorem getD_part (inside : offset < size) :
    (part bytes body size).getD offset 0 = bytes.getD (body + offset) 0 := by
  rw [part, List.getD_eq_getElem?_getD, List.getElem?_take_of_lt inside, List.getElem?_drop,
    List.getD_eq_getElem?_getD]

/-- A turn looks at the descriptor of the body, which is there. -/
private theorem elementTurn_eq (fits : body + size ≤ bytes.length) (inside : offset < size) :
    elementTurn bytes body size visit offset state =
      if (part bytes body size).getD offset 0 = 0 then .ok (.next (offset + 1) state)
      else if (elementAt (part bytes body size) offset).id = 15 ∨
          (elementAt (part bytes body size) offset).next > size then .ok (.stop state)
      else visit (elementAt (part bytes body size) offset) state := by
  rw [elementTurn, byteAt_eq (by omega), ok_bind, elementAt, getD_part inside]
  rfl

/-- A walk goes through the elements of the body up to the first that it stops at. -/
private theorem loop_elements {stops : Element → Bool} {out : Element → σ} {step : σ → Element → σ}
    (fits : body + size ≤ bytes.length)
    (visits : ∀ element state, element.next ≤ size →
      visit element state =
        .ok (if stops element then .stop (out element) else .next element.next (step state element)))
    {fuel : ℕ} (enough : size ≤ offset + fuel) :
    loop size 1 (elementTurn bytes body size visit) offset state =
      .ok (((elementsFrom (part bytes body size) fuel offset).find? stops).elim
        ((elementsFrom (part bytes body size) fuel offset).foldl step state) out) := by
  induction fuel generalizing offset state with
  | zero => exact loop_of_behind (by omega)
  | succ fuel ih =>
    rw [elementsFrom, length_part fits]
    by_cases inside : offset < size
    · have turn := @elementTurn_eq bytes offset σ body size visit state fits inside
      rw [if_pos inside]
      dsimp only
      split_ifs at turn ⊢ with padded stopped
      · rw [loop_of_next inside turn (Nat.lt_succ_self offset)]
        exact ih (by omega)
      · exact loop_of_stop inside turn
      · have bounded := (not_or.mp stopped).2
        rw [visits _ _ (not_lt.mp bounded)] at turn
        rw [List.find?_cons, List.foldl_cons]
        cases here : stops (elementAt (part bytes body size) offset) with
        | true =>
          rw [here, if_pos rfl] at turn
          exact loop_of_stop inside turn
        | false =>
          rw [here, if_neg Bool.false_ne_true] at turn
          have advances := lt_next (part bytes body size) offset
          rw [loop_of_next inside turn advances]
          exact ih (by omega)
    · rw [if_neg inside]
      exact loop_of_behind (by omega)

end Walk

/-- The body is found where the model says, and it fits the message. -/
private theorem readableExtension_eq (long : 12 ≤ bytes.length) :
    ∃ found, readableExtension bytes = .ok found ∧
      (∀ view ∈ found, view.1 = Rtp.fixedHeaderSize bytes + 4 ∧ view.1 + view.2 ≤ bytes.length) ∧
      WeakNetVideo.readableExtension bytes = found.map fun view => part bytes view.1 view.2 := by
  rw [readableExtension, WeakNetVideo.readableExtension, extension_eq (by omega), fixedHeaderSize_eq (by omega)]
  simp only [ok_bind]
  by_cases absent : (!Rtp.extension bytes) = true
  · rw [if_pos absent, if_pos absent]
    exact ⟨none, rfl, by simp, rfl⟩
  rw [if_neg absent, if_neg absent]
  by_cases short : bytes.length < Rtp.fixedHeaderSize bytes + 4
  · rw [if_pos short, if_pos short]
    exact ⟨none, rfl, by simp, rfl⟩
  rw [if_neg short, if_neg short, profileSpecificId_eq (by omega), headerLength_eq (by omega)]
  simp only [ok_bind]
  by_cases other : Rtp.profileSpecificId bytes (Rtp.fixedHeaderSize bytes) ≠ oneByteExtensionProfile
  · rw [if_pos other, if_pos other]
    exact ⟨none, rfl, by simp, rfl⟩
  rw [if_neg other, if_neg other]
  by_cases overrun : bytes.length <
      Rtp.fixedHeaderSize bytes + 4 + Rtp.headerLength bytes (Rtp.fixedHeaderSize bytes) * 4
  · rw [if_pos overrun, if_pos overrun]
    exact ⟨none, rfl, by simp, rfl⟩
  · rw [if_neg overrun, if_neg overrun]
    refine ⟨some (_, _), rfl, ?_, rfl⟩
    rintro _ ⟨⟩
    exact ⟨rfl, not_lt.mp overrun⟩

/-! ## Writers -/

/-- The body of an extension is all of it. -/
private theorem part_self (bytes : List Byte) : part bytes 0 bytes.length = bytes := by
  rw [part, List.drop_zero, List.take_length]

private theorem loop_noteUsed (body : List Byte) :
    loop body.length 1 (elementTurn body 0 body.length noteUsed) 0 0 = .ok (usedSize body) := by
  have walked := @loop_elements body 0 ℕ 0 body.length noteUsed 0 (fun _ => false) (fun _ => 0)
    (fun _ element => element.next) (by omega) (fun _ _ _ => rfl) body.length (by omega)
  rw [part_self] at walked
  rw [walked, usedSize, elements, List.find?_eq_none.mpr (by simp)]
  rfl

/-- The writers keep what the model says, of a message whose old payload begins inside it. -/
private theorem oldExtension_eq (long : 12 ≤ bytes.length) :
    oldExtension bytes = .ok (WeakNetVideo.oldExtension bytes) ∧
      ∀ kept ∈ WeakNetVideo.oldExtension bytes, Rtp.fixedHeaderSize bytes ≤ bytes.length ∧ kept.2 ≤ bytes.length := by
  obtain ⟨found, readable, fits, same⟩ := readableExtension_eq long
  rw [oldExtension, WeakNetVideo.oldExtension, extension_eq (by omega), fixedHeaderSize_eq (by omega), readable, same]
  simp only [ok_bind]
  by_cases noHeader : bytes.length < Rtp.fixedHeaderSize bytes
  · rw [if_pos noHeader, if_pos noHeader]
    exact ⟨rfl, by simp⟩
  rw [if_neg noHeader, if_neg noHeader]
  split_ifs
  · cases found with
    | none => exact ⟨rfl, by simp⟩
    | some view =>
      obtain ⟨begins, inside⟩ := fits view rfl
      have whole := length_part inside
      have copied : slice bytes view.1 (view.1 + view.2) = .ok (part bytes view.1 view.2) := by
        rw [slice_eq (Nat.le_add_right _ _) inside, Nat.add_sub_cancel_left, part]
      refine ⟨?_, ?_⟩
      · simp only [copied, ok_bind, loop_noteUsed, slice_zero (usedSize_le _), Option.map_some, whole, ← begins]
        rfl
      · rintro _ ⟨⟩
        refine ⟨not_lt.mp noHeader, ?_⟩
        simp only [whole, ← begins]
        exact inside
  · refine ⟨rfl, ?_⟩
    rintro _ ⟨⟩
    exact ⟨not_lt.mp noHeader, not_lt.mp noHeader⟩

/-- Pushing zero bytes one at a time pads to the word. -/
private theorem pushPadding_eq (body : List Byte) : pushPadding body = padToWord body := by
  induction body using pushPadding.induct with
  | case1 body unaligned ih =>
    obtain ⟨missing, zeros⟩ : ∃ missing, (4 - body.length % 4) % 4 = missing + 1 :=
      ⟨(4 - body.length % 4) % 4 - 1, by omega⟩
    have after : (4 - (body ++ [0]).length % 4) % 4 = missing := by
      rw [List.length_append, List.length_singleton]
      omega
    rw [pushPadding, if_pos unaligned, ih, padToWord, padToWord, zeros, after, List.append_assoc]
    rfl
  | case2 body aligned =>
    rw [pushPadding, if_neg aligned, padToWord, not_not.mp aligned]
    exact (List.append_nil body).symm

/-- The new message is assembled of parts that are there. -/
private theorem rewritten_eq (body : List Byte) {oldPayloadOffset : ℕ}
    (header : Rtp.fixedHeaderSize bytes ≤ bytes.length) (payload : oldPayloadOffset ≤ bytes.length) :
    rewritten bytes body oldPayloadOffset =
      .ok ((bytes.take (Rtp.fixedHeaderSize bytes)).modify 0 (· ||| 0x10) ++
        (bytesU16 oneByteExtensionProfile ++ (bytesU16 (UInt16.ofNat (body.length / 4)) ++
          (body ++ bytes.drop oldPayloadOffset)))) := by
  have atLeast : 12 ≤ Rtp.fixedHeaderSize bytes := Nat.le_add_right _ _
  have long : 0 < (bytes.take (Rtp.fixedHeaderSize bytes)).length := by
    rw [List.length_take]
    omega
  have marked (bits : Byte) (bytes : List Byte) (long : 0 < bytes.length) :
      overwrite bytes 0 [bytes.getD 0 0 ||| bits] = .ok (bytes.modify 0 (· ||| bits)) := by
    cases bytes with
    | nil => contradiction
    | cons first rest => rw [overwrite_eq long]; rfl
  rw [rewritten, fixedHeaderSize_eq (by omega)]
  simp only [ok_bind, slice_zero header, byteAt_eq long, marked _ _ long, slice_length payload]
  rfl

private theorem addFrameMetadata_eq (rtc : Rtc) (metadata : FrameMetadata) (message : Message) :
    addFrameMetadata rtc metadata message = .ok (WeakNetVideo.addFrameMetadata rtc metadata message) := by
  rw [addFrameMetadata, WeakNetVideo.addFrameMetadata]
  split_ifs with media
  · obtain ⟨old, inside⟩ := oldExtension_eq ((isRtp_some_iff rtc message).mp media).2.1
    rw [old, ok_bind, rewriteExtension]
    cases present : WeakNetVideo.oldExtension message.bytes with
    | none => rfl
    | some kept =>
      obtain ⟨header, payload⟩ := inside kept present
      simp only [rewritten_eq _ header payload, pushPadding_eq, ok_bind]
      rfl
  · rfl

/-- What passes the first test of the statistics handler has a header. -/
private theorem long_of_passes {rtc : Rtc} (passes : ¬(decide (bytes.length < 12) || rtc.isRtcp bytes) = true) :
    12 ≤ bytes.length := by
  by_contra short
  exact passes (by simp [not_le.mp short])

private theorem writeTwccExtension_eq (rtc : Rtc) (next : UInt16) (message : Message) :
    writeTwccExtension rtc next message = .ok (WeakNetVideo.writeTwccExtension rtc next message) := by
  rw [writeTwccExtension, WeakNetVideo.writeTwccExtension]
  by_cases other : (decide (message.bytes.length < 12) || rtc.isRtcp message.bytes) = true
  · rw [if_pos other, if_pos other]
    rfl
  have long := long_of_passes other
  rw [if_neg other, if_neg other, version_eq (by omega), ok_bind, padding_eq (by omega), ok_bind]
  by_cases plain : (decide (Rtp.version message.bytes ≠ 2) || Rtp.padding message.bytes) = true
  · rw [if_pos plain, if_pos plain]
    rfl
  obtain ⟨old, inside⟩ := oldExtension_eq long
  rw [if_neg plain, if_neg plain, old, ok_bind, rewriteExtension]
  cases present : WeakNetVideo.oldExtension message.bytes with
  | none => rfl
  | some kept =>
    obtain ⟨header, payload⟩ := inside kept present
    simp only [rewritten_eq _ header payload, pushPadding_eq, ok_bind]
    rfl

/-! ## Readers -/

/-- A reader leaves with what it reads of the first element that it looks for. -/
private theorem loop_findElement {α : Type} {wanted : Element → Bool} {read : Element → Except Fault (Option α)}
    {value : Element → Option α} {body size : ℕ} (fits : body + size ≤ bytes.length)
    (reads : ∀ element, wanted element = true → element.next ≤ size → read element = .ok (value element)) :
    loop size 1 (elementTurn bytes body size (findElement wanted read)) 0 none =
      .ok (((elements (part bytes body size)).find? wanted).bind value) := by
  have walked := @loop_elements bytes 0 (Option α) body size (findElement wanted read) none wanted value
    (fun state _ => state) fits (fun element state inside => by
      rw [findElement]
      split_ifs with here
      · rw [reads element here inside]
        rfl
      · rfl) size (by omega)
  rw [walked, elements, length_part fits]
  have idle (found : List Element) : found.foldl (fun (state : Option α) _ => state) none = none := by
    induction found with
    | nil => rfl
    | cons element found ih => exact ih
  rw [idle]
  cases (elementsFrom (part bytes body size) size 0).find? wanted <;> rfl

/-- The fields of a frame info element lie in it. -/
private theorem metadataAt_eq {body size : ℕ} (fits : body + size ≤ bytes.length) {element : Element}
    (wanted : element.isFrameInfo = true) (inside : element.next ≤ size) :
    metadataAt bytes (body + element.offset + 1) =
      .ok (FrameMetadata.ofValue ((part bytes body size).drop (element.offset + 1))) := by
  have twelve : element.valueSize = 12 := by
    rw [Element.isFrameInfo, Bool.and_eq_true, decide_eq_true_eq] at wanted
    exact of_decide_eq_true wanted.2
  rw [Element.next, twelve] at inside
  have first : ((part bytes body size).drop (element.offset + 1)).getD 0 0 =
      bytes.getD (body + element.offset + 1) 0 := by
    rw [List.getD_eq_getElem?_getD, List.getElem?_drop, ← List.getD_eq_getElem?_getD, getD_part (by omega)]
    rfl
  have word (k : ℕ) (fit : k + 2 ≤ 12) : BigEndian.readU16 ((part bytes body size).drop (element.offset + 1)) k =
      BigEndian.readU16 bytes (body + element.offset + 1 + k) := by
    rw [readU16_drop, part, readU16_part _ _ (by omega), ← Nat.add_assoc, ← Nat.add_assoc]
  have long : BigEndian.readU32 ((part bytes body size).drop (element.offset + 1)) 3 =
      BigEndian.readU32 bytes (body + element.offset + 1 + 3) := by
    rw [readU32_drop, part, readU32_part _ _ (by omega), ← Nat.add_assoc, ← Nat.add_assoc]
  rw [metadataAt, byteAt_eq (by omega), ok_bind, FrameMetadata.ofValue, first, word 1 (by omega), word 7 (by omega),
    word 9 (by omega), long, readU16_eq (by omega), readU32_eq (by omega), readU16_eq (by omega),
    readU16_eq (by omega)]
  split_ifs <;> rfl

private theorem readFrameMetadata_eq (rtc : Rtc) (message : Message) :
    readFrameMetadata rtc message = .ok (WeakNetVideo.readFrameMetadata rtc message) := by
  rw [readFrameMetadata, WeakNetVideo.readFrameMetadata]
  split_ifs with media
  · obtain ⟨found, readable, fits, same⟩ := readableExtension_eq ((isRtp_some_iff rtc message).mp media).2.1
    rw [readable, ok_bind, same]
    cases found with
    | none => rfl
    | some view =>
      have inside := (fits view rfl).2
      exact loop_findElement inside fun element wanted next => metadataAt_eq inside wanted next
  · rfl

private theorem readTwccSequence_eq (rtc : Rtc) (message : MessagePtr) :
    readTwccSequence rtc message = .ok (WeakNetVideo.readTwccSequence rtc message) := by
  cases message with
  | none => rfl
  | some message =>
    rw [readTwccSequence, WeakNetVideo.readTwccSequence]
    by_cases other : (decide (message.bytes.length < 12) || rtc.isRtcp message.bytes) = true
    · rw [if_pos other, if_pos other]
      rfl
    have long := long_of_passes other
    rw [if_neg other, if_neg other, version_eq (by omega), ok_bind]
    by_cases version : Rtp.version message.bytes ≠ 2
    · rw [if_pos version, if_pos version]
      rfl
    obtain ⟨found, readable, fits, same⟩ := readableExtension_eq long
    rw [if_neg version, if_neg version, readable, ok_bind, same]
    cases found with
    | none => rfl
    | some view =>
      have inside := (fits view rfl).2
      have reads (element : Element) (wanted : decide (element.id = twccExtMapId ∧ element.valueSize = 2) = true)
          (next : element.next ≤ view.2) :
          (return some (← readU16 message.bytes (view.1 + element.offset + 1)) : Except Fault (Option UInt16)) =
            .ok (some (BigEndian.readU16 (part message.bytes view.1 view.2) (element.offset + 1))) := by
        rw [Element.next, (of_decide_eq_true wanted).2] at next
        rw [readU16_eq (by omega), part, readU16_part _ _ (by omega)]
        rfl
      have read := loop_findElement inside reads
      simp only [Option.map_some, Option.bind_some]
      rw [Option.map_eq_bind]
      exact read

/-! ## Retransmissions -/

private theorem setPayloadType_eq (type : Byte) (long : 12 ≤ bytes.length) :
    setPayloadType bytes type = .ok (Rtp.setPayloadType bytes type) := by
  rw [setPayloadType, byteAt_eq (by omega), ok_bind, overwrite_eq (by rw [List.length_singleton]; omega),
    Rtp.setPayloadType, List.modify_eq_take_cons_drop (show 1 < bytes.length by omega),
    List.getD_eq_getElem _ _ (by omega)]
  rfl

private theorem setSeqNumber_eq (sequence : UInt16) (long : 12 ≤ bytes.length) :
    setSeqNumber bytes sequence = .ok (Rtp.setSeqNumber bytes sequence) := by
  rw [setSeqNumber, overwrite_eq (by rw [length_bytesU16]; omega), length_bytesU16, Rtp.setSeqNumber]

private theorem setSsrc_eq (ssrc : UInt32) (long : 12 ≤ bytes.length) :
    setSsrc bytes ssrc = .ok (Rtp.setSsrc bytes ssrc) := by
  rw [setSsrc, overwrite_eq (by rw [length_bytesU32]; omega), length_bytesU32, Rtp.setSsrc]

private theorem length_setSeqNumber (sequence : UInt16) (long : 12 ≤ bytes.length) :
    (Rtp.setSeqNumber bytes sequence).length = bytes.length := by
  rw [Rtp.setSeqNumber, List.length_append, List.length_append, List.length_take, List.length_drop, length_bytesU16]
  omega

/-- The payload moves inside the message, and the message can shrink behind it. -/
private theorem overwrite_payload {start : ℕ} (payload : start + 2 ≤ bytes.length) :
    ∃ moved, overwrite bytes start (bytes.drop (start + 2)) = .ok moved ∧ moved.length = bytes.length ∧
      moved.take (bytes.length - 2) = bytes.take start ++ bytes.drop (start + 2) := by
  have behind : (bytes.drop (start + 2)).length = bytes.length - start - 2 := by
    rw [List.length_drop]
    omega
  have kept : (bytes.take start ++ bytes.drop (start + 2)).length = bytes.length - 2 := by
    rw [List.length_append, List.length_take, behind]
    omega
  refine ⟨_, overwrite_eq (by rw [behind]; omega), ?_, ?_⟩
  · rw [← List.append_assoc, List.length_append, kept, List.length_drop, behind]
    omega
  · rw [← List.append_assoc, ← kept, List.take_left]

/-- The header that is set is still there behind the move. -/
private theorem restoreAt_eq (handler : RtxReceivingHandler) {start : ℕ} (header : 12 ≤ start)
    (payload : start + 2 ≤ bytes.length) :
    restoreAt handler bytes start = .ok (handler.restoreAt bytes start) := by
  have taken : slice bytes (start + 2) (start + 2 + (bytes.length - start - 2)) = .ok (bytes.drop (start + 2)) := by
    rw [show start + 2 + (bytes.length - start - 2) = bytes.length by omega, slice_length payload]
  obtain ⟨moved, overwritten, same, shrunk⟩ := overwrite_payload payload
  have restored : 12 ≤ (bytes.take start ++ bytes.drop (start + 2)).length := by
    rw [List.length_append, List.length_take, List.length_drop]
    omega
  have typed : 12 ≤ (Rtp.setPayloadType (bytes.take start ++ bytes.drop (start + 2))
      handler.primaryPayloadType).length := by
    rw [Rtp.setPayloadType, List.length_modify]
    exact restored
  rw [restoreAt, readU16_eq payload, ok_bind, sub_eq (by omega), ok_bind, sub_eq (by omega), ok_bind, taken, ok_bind,
    overwritten, ok_bind, same, sub_eq (by omega), ok_bind, slice_zero (by omega), ok_bind, shrunk,
    setPayloadType_eq _ restored, ok_bind, setSeqNumber_eq _ typed, ok_bind,
    setSsrc_eq _ (by rw [length_setSeqNumber _ typed]; exact typed), RtxReceivingHandler.restoreAt]

private theorem restore_eq (rtc : Rtc) (handler : RtxReceivingHandler) (message : MessagePtr) :
    restore rtc handler message = .ok (handler.restore rtc message) := by
  cases message with
  | none => rfl
  | some message =>
    rw [restore, RtxReceivingHandler.restore]
    dsimp only
    by_cases other : (!isRtp rtc (some message)) = true
    · rw [if_pos other, if_pos other]
      rfl
    have media : isRtp rtc (some message) = true := by simpa using other
    have long := ((isRtp_some_iff rtc message).mp media).2.1
    rw [if_neg other, if_neg other, payloadType_eq (by omega), ok_bind, ssrc_eq long, ok_bind]
    by_cases primary : Rtp.payloadType message.bytes ≠ handler.rtxPayloadType ∨
        Rtp.ssrc message.bytes ≠ handler.rtxSsrc
    · rw [if_pos primary, if_pos primary]
      rfl
    rw [if_neg primary, if_neg primary, payloadOffset, fixedHeaderSize_eq (by omega), ok_bind]
    have atLeast : 12 ≤ Rtp.fixedHeaderSize message.bytes := Nat.le_add_right _ _
    have restored (start : ℕ) (header : 12 ≤ start) :
        (if message.bytes.length < start + 2 then pure none
          else (return some { message with
            bytes := ← restoreAt handler message.bytes start, stream := handler.primarySsrc } :
              Except Fault (Option Message))) =
          .ok (if message.bytes.length < start + 2 then none
            else some { message with
              bytes := handler.restoreAt message.bytes start, stream := handler.primarySsrc }) := by
      split_ifs with short
      · rfl
      · rw [restoreAt_eq handler header (not_lt.mp short)]
        rfl
    by_cases noHeader : message.bytes.length < Rtp.fixedHeaderSize message.bytes
    · rw [if_pos noHeader, if_pos noHeader]
      rfl
    rw [if_neg noHeader, if_neg noHeader, extension_eq (by omega), ok_bind]
    by_cases extended : Rtp.extension message.bytes = true
    swap
    · rw [if_neg extended, if_neg extended]
      exact restored _ atLeast
    rw [if_pos extended, if_pos extended]
    by_cases short : message.bytes.length < Rtp.fixedHeaderSize message.bytes + 4
    · rw [if_pos short, if_pos short]
      rfl
    · rw [if_neg short, if_neg short, headerLength_eq (by omega)]
      exact restored _ (by omega)

private theorem rtxIncoming_eq (rtc : Rtc) (handler : RtxReceivingHandler) (messages : List MessagePtr) :
    rtxIncoming rtc handler messages = .ok (handler.incoming rtc messages) := by
  induction messages generalizing handler with
  | nil => rfl
  | cons message messages ih =>
    rw [rtxIncoming, restore_eq, ok_bind, RtxReceivingHandler.incoming]
    cases handler.restore rtc message with
    | none => simp only [ih, ok_bind]; rfl
    | some restored => simp only [ih, ok_bind]; rfl

/-! ## Feedback -/

/-- The groups that the length announces lie in the packet. -/
private theorem nackParts_eq (fits : offset + Rtcp.lengthInBytes bytes offset ≤ bytes.length)
    (whole : 12 ≤ Rtcp.lengthInBytes bytes offset) :
    nackParts bytes offset = .ok (WeakNetVideo.nackParts bytes offset) := by
  rw [Rtcp.lengthInBytes] at fits whole
  rw [nackParts, rtcpLength_eq (by omega), ok_bind, sub_eq (by omega), ok_bind, WeakNetVideo.nackParts]
  apply mapM_eq
  intro i member
  have inside := List.mem_range.mp member
  rw [readU16_eq (by omega), ok_bind, readU16_eq (by omega)]
  rfl

private theorem observePacket_eq (feedback : Feedback) (header : offset + 4 ≤ bytes.length)
    (fits : offset + Rtcp.lengthInBytes bytes offset ≤ bytes.length) :
    observePacket bytes offset (Rtcp.lengthInBytes bytes offset) feedback =
      .ok (feedback.observePacket bytes offset) := by
  rw [observePacket, rtcpType_eq (by omega), ok_bind, reportCount_eq (by omega), ok_bind, Feedback.observePacket]
  by_cases nack : Rtcp.payloadType bytes offset = rtcpTransportFeedback ∧
      Rtcp.reportCount bytes offset = nackFeedbackFormat ∧ Rtcp.lengthInBytes bytes offset ≥ 12
  · rw [if_pos nack, if_pos nack, nackParts_eq fits nack.2.2]
    rfl
  rw [if_neg nack, if_neg nack]
  by_cases pictureLoss : Rtcp.payloadType bytes offset = rtcpPayloadFeedback ∧
      Rtcp.reportCount bytes offset = pliFeedbackFormat
  · rw [if_pos pictureLoss, if_pos pictureLoss]
    rfl
  rw [if_neg pictureLoss, if_neg pictureLoss]
  by_cases application : Rtcp.payloadType bytes offset = rtcpApp ∧ Rtcp.lengthInBytes bytes offset ≥ keyframeAckSize
  · have twenty := application.2
    rw [keyframeAckSize] at twenty
    rw [if_pos application, readU32_eq (by omega), ok_bind]
    by_cases named : BigEndian.readU32 bytes (offset + 8) = keyframeAckName
    · rw [if_pos named, if_pos ⟨application.1, application.2, named⟩]
      rfl
    · rw [if_neg named, if_neg fun all => named all.2.2]
      rfl
  · rw [if_neg application, if_neg fun all => application ⟨all.1, all.2.1⟩]
    rfl

/-- The walk over the packets of a message ends, each packet inside the message. -/
private theorem loop_packets {fuel : ℕ} (enough : bytes.length ≤ offset + fuel) (feedback : Feedback) :
    loop bytes.length 4 (packetTurn bytes) offset feedback =
      .ok (Feedback.observePackets bytes fuel offset feedback) := by
  induction fuel generalizing offset feedback with
  | zero => exact loop_of_behind (by omega)
  | succ fuel ih =>
    rw [Feedback.observePackets]
    by_cases inside : offset + 4 ≤ bytes.length
    · rw [if_pos inside]
      have turn : packetTurn bytes offset feedback =
          if Rtcp.lengthInBytes bytes offset < 4 ∨ offset + Rtcp.lengthInBytes bytes offset > bytes.length then
            .ok (.stop feedback)
          else .ok (.next (offset + Rtcp.lengthInBytes bytes offset) (feedback.observePacket bytes offset)) := by
        rw [packetTurn, lengthInBytes_eq inside, ok_bind]
        split_ifs with overrun
        · rfl
        · rw [observePacket_eq feedback inside (not_lt.mp (not_or.mp overrun).2)]
          rfl
      dsimp only
      split_ifs at turn ⊢ with overrun
      · exact loop_of_stop inside turn
      · have advances : 4 ≤ Rtcp.lengthInBytes bytes offset := not_lt.mp (not_or.mp overrun).1
        rw [loop_of_next inside turn (by omega)]
        exact ih (by omega) _
    · rw [if_neg inside]
      exact loop_of_behind (by omega)

private theorem observeMessage_eq (feedback : Feedback) (message : MessagePtr) :
    observeMessage feedback message = .ok (feedback.observeMessage message) := by
  cases message with
  | none => rfl
  | some message =>
    rw [observeMessage, Feedback.observeMessage]
    split_ifs
    · rfl
    · exact loop_packets (Nat.le_add_left _ _) feedback

private theorem senderIncoming_eq (s : Sender) (messages : List MessagePtr) :
    senderIncoming s messages = .ok (s.senderIncoming messages) := by
  rw [senderIncoming, foldlM_eq observeMessage_eq, ok_bind, Sender.senderIncoming]
  rfl

end Checked

/-- On any messages, none of the six walkers makes an access outside a message or an extension body, takes a size
from a smaller one or goes round a loop without getting further; and each ends with what the model says. -/
theorem walkers_in_bounds (rtc : Rtc) :
    (∀ s messages, Checked.senderIncoming s messages = .ok (s.senderIncoming messages)) ∧
      (∀ handler messages, Checked.rtxIncoming rtc handler messages = .ok (handler.incoming rtc messages)) ∧
      (∀ metadata message,
        Checked.addFrameMetadata rtc metadata message = .ok (addFrameMetadata rtc metadata message)) ∧
      (∀ message, Checked.readFrameMetadata rtc message = .ok (readFrameMetadata rtc message)) ∧
      (∀ next message, Checked.writeTwccExtension rtc next message = .ok (writeTwccExtension rtc next message)) ∧
      ∀ message, Checked.readTwccSequence rtc message = .ok (readTwccSequence rtc message) :=
  ⟨Checked.senderIncoming_eq, Checked.rtxIncoming_eq rtc, Checked.addFrameMetadata_eq rtc,
    Checked.readFrameMetadata_eq rtc, Checked.writeTwccExtension_eq rtc, Checked.readTwccSequence_eq rtc⟩

end WeakNetVideo
