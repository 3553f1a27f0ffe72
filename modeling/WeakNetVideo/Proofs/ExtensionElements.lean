import WeakNetVideo.Proofs.FrameMetadata
import WeakNetVideo.Model.TwccFeedback

/-! # Elements with their values

A reader of a packet sees the ids and values of the elements in its header extension. A writer adds one
element behind the others, and leaves the rest of the packet as it was up to the extension bit. What
holds of one writer holds of one behind the other.
-/

namespace WeakNetVideo

open BigEndian

/-- The value bytes of an element. -/
def Element.value (body : List Byte) (element : Element) : List Byte :=
  (body.drop (element.offset + 1)).take element.valueSize

/-- The parsed element list of a body: ids and values. -/
def elementValues (body : List Byte) : List (Byte × List Byte) :=
  (elements body).map fun element => (element.id, element.value body)

/-- The body that a reader of a packet walks, empty where there is none. -/
def extensionBody (bytes : List Byte) : List Byte := (readableExtension bytes).getD []

variable {body bytes rewritten : List Byte} {descriptor : Byte} {value : List Byte}

/-- The value of an element is whole. -/
theorem Element.length_value {element : Element} (member : element ∈ elements body) :
    (element.value body).length = element.valueSize := by
  have inside := Nat.le_trans (next_le_usedSize body element member) (usedSize_le body)
  rw [Element.next] at inside
  rw [Element.value, List.length_take, List.length_drop]
  omega

private theorem value_of_kept {element : Element} (member : element ∈ elements body) (behind : List Byte) :
    element.value (body.take (usedSize body) ++ behind) = element.value body := by
  have inside := next_le_usedSize body element member
  have used := usedSize_le body
  rw [Element.next] at inside
  rw [Element.value, Element.value, List.drop_append_of_le_length (by rw [List.length_take]; omega),
    List.take_append_of_le_length (by rw [List.length_drop, List.length_take]; omega), List.drop_take,
    List.take_take, Nat.min_eq_left (by omega)]

/-- A writer keeps the elements with their values and adds its own. -/
theorem elementValues_rewritten (nonzero : descriptor ≠ 0) (id : descriptor >>> 4 ≠ 15)
    (size : value.length = (descriptor &&& 0x0f).toNat + 1) :
    elementValues (padToWord (body.take (usedSize body) ++ descriptor :: value)) =
      elementValues body ++ [(descriptor >>> 4, value)] := by
  have used := usedSize_le body
  rw [padToWord, List.append_assoc]
  generalize (4 - (body.take (usedSize body) ++ descriptor :: value).length % 4) % 4 = padding
  rw [elementValues, elements_rewritten body value descriptor padding nonzero id size, List.map_append]
  congr 1
  · apply List.map_congr_left
    intro element member
    rw [value_of_kept member]
  · have kept : (body.take (usedSize body)).length = usedSize body := by
      rw [List.length_take, Nat.min_eq_left used]
    have here : Element.value (body.take (usedSize body) ++ (descriptor :: value ++ List.replicate padding 0))
        ⟨usedSize body, descriptor >>> 4, value.length⟩ = value := by
      rw [Element.value, List.cons_append, ← List.singleton_append, ← List.append_assoc,
        List.drop_left' (by simp [kept]), List.take_left' rfl]
    simp only [List.map_cons, List.map_nil, here]

/-! ## Packets -/

private theorem readableExtension_spec (read : readableExtension bytes = some body) :
    Rtp.extension bytes = true ∧ body.length = Rtp.headerLength bytes (Rtp.fixedHeaderSize bytes) * 4 := by
  unfold readableExtension at read
  dsimp only at read
  split_ifs at read with clear short profile truncated
  cases read
  refine ⟨by simpa using clear, ?_⟩
  rw [List.length_take, List.length_drop]
  omega

/-- A writer starts from the elements of the body and from the payload. -/
theorem oldExtension_eq {kept : List Byte} {payloadOffset : ℕ}
    (old : oldExtension bytes = some (kept, payloadOffset)) :
    kept = (extensionBody bytes).take (usedSize (extensionBody bytes)) ∧
      payloadOffset = declaredHeaderSize bytes := by
  obtain ⟨-, ⟨present, body, read, rfl, rfl⟩ | ⟨absent, rfl, rfl⟩⟩ := oldExtension_cases old
  · obtain ⟨_, length⟩ := readableExtension_spec read
    refine ⟨by rw [extensionBody, read, Option.getD_some], ?_⟩
    rw [declaredHeaderSize, if_pos present, ← length, Nat.add_assoc]
  · have none_ : readableExtension bytes = none := by simp [readableExtension, absent]
    refine ⟨by rw [extensionBody, none_]; rfl, ?_⟩
    simp [declaredHeaderSize, absent]

/-- A packet that differs from another by elements added to its header extension. -/
structure Extended (bytes : List Byte) (added : List (Byte × List Byte)) (rewritten : List Byte) : Prop where
  elements : elementValues (extensionBody rewritten) = elementValues (extensionBody bytes) ++ added
  readable : readableExtension rewritten = some (extensionBody rewritten)
  lengthWord : Rtp.headerLength rewritten (Rtp.fixedHeaderSize rewritten) * 4 =
    (extensionBody rewritten).length
  payload : rewritten.drop (declaredHeaderSize rewritten) = bytes.drop (declaredHeaderSize bytes)
  fixed : Rtp.fixedHeaderSize rewritten = Rtp.fixedHeaderSize bytes
  firstByte : Rtp.byteAt rewritten 0 = Rtp.byteAt bytes 0 ||| 0x10
  header : (rewritten.take (Rtp.fixedHeaderSize bytes)).drop 1 =
    (bytes.take (Rtp.fixedHeaderSize bytes)).drop 1

namespace Extended

variable {added more : List (Byte × List Byte)} {last : List Byte}

theorem trans (first : Extended bytes added rewritten) (second : Extended rewritten more last) :
    Extended bytes (added ++ more) last where
  elements := by rw [second.elements, first.elements, List.append_assoc]
  readable := second.readable
  lengthWord := second.lengthWord
  payload := second.payload.trans first.payload
  fixed := second.fixed.trans first.fixed
  firstByte := by rw [second.firstByte, first.firstByte, UInt8.or_assoc, UInt8.or_self]
  header := by rw [← first.header, ← first.fixed, second.header]

theorem bodyLength (extended : Extended bytes added rewritten) :
    Rtp.fixedHeaderSize rewritten + 4 + (extensionBody rewritten).length ≤ rewritten.length :=
  readableExtension_some extended.readable

/-- The fixed header is kept behind its first byte. -/
theorem valueAt_header (extended : Extended bytes added rewritten) {n offset : ℕ} (behind : 0 < offset)
    (inside : offset + n ≤ 12) : valueAt n rewritten offset = valueAt n bytes offset := by
  have least := headerSize_le_fixedHeaderSize bytes
  have same := extended.header
  rw [List.drop_take, List.drop_take] at same
  have part (packet : List Byte) : valueAt n ((packet.drop 1).take (Rtp.fixedHeaderSize bytes - 1)) (offset - 1) =
      valueAt n packet offset := by
    rw [valueAt_part packet 1 (by omega), Nat.add_sub_cancel' behind]
  rw [← part, same, part]

theorem seqNumber (extended : Extended bytes added rewritten) : Rtp.seqNumber rewritten = Rtp.seqNumber bytes :=
  congrArg UInt16.ofNat (extended.valueAt_header (by decide) (by decide))

theorem timestamp (extended : Extended bytes added rewritten) : Rtp.timestamp rewritten = Rtp.timestamp bytes :=
  congrArg UInt32.ofNat (extended.valueAt_header (by decide) (by decide))

theorem ssrc (extended : Extended bytes added rewritten) : Rtp.ssrc rewritten = Rtp.ssrc bytes :=
  congrArg UInt32.ofNat (extended.valueAt_header (by decide) (by decide))

/-- The second byte of the header, with the marker and the payload type. -/
theorem second (extended : Extended bytes added rewritten) : rewritten[1]? = bytes[1]? := by
  have least := headerSize_le_fixedHeaderSize bytes
  have same := congrArg (fun header => header[0]?) extended.header
  simpa [List.getElem?_drop, List.getElem?_take, show 1 < Rtp.fixedHeaderSize bytes by omega] using same

theorem payloadType (extended : Extended bytes added rewritten) :
    Rtp.payloadType rewritten = Rtp.payloadType bytes := by
  simp only [Rtp.payloadType, Rtp.byteAt, List.getD_eq_getElem?_getD, extended.second]

/-- The header that the new packet declares is there. -/
theorem declared_le (extended : Extended bytes added rewritten) :
    declaredHeaderSize rewritten ≤ rewritten.length := by
  have inside := extended.bodyLength
  rw [declaredHeaderSize, if_pos (readableExtension_spec extended.readable).1, extended.lengthWord,
    Rtp.extensionHeaderSize, ← Nat.add_assoc]
  exact inside

/-- A second writer does not refuse what a first one has left. -/
theorem oldExtension_isSome (extended : Extended bytes added rewritten) :
    (oldExtension rewritten).isSome = true := by
  have inside := extended.bodyLength
  have present := (readableExtension_spec extended.readable).1
  simp only [oldExtension, present, if_true, extended.readable]
  rw [if_neg (by omega)]
  rfl

end Extended

/-- The rebuilt packet is the old one with one element more. -/
theorem extended_rewriteExtension {old : List Byte × ℕ} (goesOn : oldExtension bytes = some old)
    (small : old.1.length + value.length < 4 * 65534) (nonzero : descriptor ≠ 0) {id : Byte}
    (announces : descriptor >>> 4 = id) (noStop : id ≠ 15)
    (size : value.length = (descriptor &&& 0x0f).toNat + 1) :
    Extended bytes [(id, value)] (rewriteExtension bytes (descriptor :: value)) := by
  subst announces
  obtain ⟨kept, payloadOffset⟩ := old
  obtain ⟨keeps, payload⟩ := oldExtension_eq goesOn
  have fits := (oldExtension_some goesOn).1
  have header := length_rewrittenHeader fits
  have readable := @readableExtension_rewriteExtension bytes kept (descriptor :: value) payloadOffset goesOn
    (by simp at small ⊢; omega)
  have parts := @rewriteExtension_of_old bytes kept (descriptor :: value) payloadOffset goesOn
  have body : extensionBody (rewriteExtension bytes (descriptor :: value)) =
      padToWord (kept ++ descriptor :: value) := by rw [extensionBody, readable, Option.getD_some]
  have fixed := @fixedHeaderSize_rewriteExtension bytes kept (descriptor :: value) payloadOffset goesOn
  obtain ⟨present, length⟩ := readableExtension_spec readable
  refine ⟨?_, by rw [body, readable], by rw [body, length], ?_, fixed, rewriteExtension_first goesOn, ?_⟩
  · rw [body, keeps, elementValues_rewritten nonzero noStop size]
  · have declared : declaredHeaderSize (rewriteExtension bytes (descriptor :: value)) =
        Rtp.fixedHeaderSize bytes + 4 + (padToWord (kept ++ descriptor :: value)).length := by
      rw [declaredHeaderSize, if_pos present, ← length, fixed, Nat.add_assoc]
    rw [declared, parts, ← payload, ← List.append_assoc, ← List.append_assoc, ← List.append_assoc,
      List.drop_left' (by simp [header]; omega)]
  · rw [parts, List.take_left' header, rewrittenHeader]
    cases bytes.take (Rtp.fixedHeaderSize bytes) <;> rfl

/-- The new body is longer than what was kept by the element and the padding at most. -/
theorem length_extensionBody_le {old : List Byte × ℕ} (goesOn : oldExtension bytes = some old)
    {element : List Byte} (small : old.1.length + element.length < 4 * 65535) :
    (extensionBody (rewriteExtension bytes element)).length ≤ old.1.length + element.length + 3 := by
  have readable := readableExtension_rewriteExtension goesOn small
  rw [extensionBody, readable, Option.getD_some, ← List.length_append]
  exact length_padToWord_le _

end WeakNetVideo
