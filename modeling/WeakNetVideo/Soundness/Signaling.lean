import WeakNetVideo.Model.Signaling

/-! # The signaling format reads back, up to an empty last field

Joining three fields and cutting at the bars gives the fields back as long as the last one holds a
character. The reader extracts nothing from an empty last field, so that it sees two fields only and
ignores the message.
-/

namespace WeakNetVideo

/-! ## Hexadecimal -/

/-- The digits of one byte are no bars, and give the byte back. -/
private theorem hex_byte (byte : Byte) :
    bar ∉ hexEncode [byte] ∧ hexDecode (hexEncode [byte]) = [byte] := by
  have all : ∀ value : Fin 256, bar ∉ hexEncode [UInt8.ofNat value] ∧
      hexDecode (hexEncode [UInt8.ofNat value]) = [UInt8.ofNat value] := by decide +kernel
  simpa only [UInt8.ofNat_toNat] using all ⟨byte.toNat, byte.toNat_lt⟩

private theorem hexEncode_cons (byte : Byte) (input : List Byte) :
    hexEncode (byte :: input) = hexEncode [byte] ++ hexEncode input := by
  simp [hexEncode]

theorem bar_not_mem_hexEncode (input : List Byte) : bar ∉ hexEncode input := by
  induction input with
  | nil => exact List.not_mem_nil
  | cons byte input ih =>
    rw [hexEncode_cons, List.mem_append, not_or]
    exact ⟨(hex_byte byte).1, ih⟩

theorem hexEncode_eq_nil {input : List Byte} : hexEncode input = [] ↔ input = [] := by
  cases input <;> simp [hexEncode]

theorem hexDecode_hexEncode (input : List Byte) : hexDecode (hexEncode input) = input := by
  induction input with
  | nil => rfl
  | cons byte input ih =>
    have first := (hex_byte byte).2
    simp only [hexEncode, List.flatMap_cons, List.flatMap_nil, List.append_nil, hexDecode,
      List.cons.injEq, and_true, List.cons_append, List.nil_append] at first ih ⊢
    exact ⟨first, ih⟩

/-! ## Cutting -/

variable {delimiter : Byte} {item field : List Byte}

/-- A field without the delimiter is extracted up to the delimiter behind it. -/
private theorem getlines_field (free : delimiter ∉ field) (text : List Byte) :
    getlines delimiter item (field ++ delimiter :: text) =
      (item ++ field) :: getlines delimiter [] text := by
  induction field generalizing item with
  | nil => simp [getlines]
  | cons c field ih =>
    rw [List.mem_cons, not_or] at free
    rw [List.cons_append, getlines, if_neg (Ne.symm free.1), ih free.2, List.append_assoc]
    rfl

/-- The text behind the last delimiter is a field only when it holds a character. -/
private theorem getlines_last (free : delimiter ∉ field) :
    getlines delimiter item field = if item ++ field = [] then [] else [item ++ field] := by
  induction field generalizing item with
  | nil => simp [getlines]
  | cons c field ih =>
    rw [List.mem_cons, not_or] at free
    rw [getlines, if_neg (Ne.symm free.1), ih free.2]
    simp

/-- Three fields joined by bars are cut into these, or into the first two when the last is empty. -/
theorem split_three {first second third : List Byte} (one : bar ∉ first) (two : bar ∉ second)
    (three : bar ∉ third) : split (first ++ [bar] ++ second ++ [bar] ++ third) bar =
      first :: second :: if third = [] then [] else [third] := by
  have shape : first ++ [bar] ++ second ++ [bar] ++ third =
      first ++ bar :: (second ++ bar :: third) := by simp
  rw [shape, split, getlines_field one, getlines_field two, getlines_last three]
  rfl

/-! ## Messages -/

/-- The calls that a signal is meant to lead to at the peer. -/
def LocalSignal.calls (role : Role) : LocalSignal → List PeerCall
  | .description type sdp =>
    .setRemoteDescription sdp type ::
      if role = .receiver ∧ type = offerType then [.setLocalDescription] else []
  | .candidate mid line => [.addRemoteCandidate line mid]

/-- The field that ends the text: the session description, or the candidate. -/
def LocalSignal.lastField : LocalSignal → List Byte
  | .description _ sdp => sdp
  | .candidate _ line => line

/-- The type of a description is sent as it is. -/
def LocalSignal.TypeHasNoBar : LocalSignal → Prop
  | .description type _ => bar ∉ type
  | .candidate _ _ => True

/-- What the peer does with the text of a signal. -/
theorem handleSignalingMessage_text (role : Role) (signal : LocalSignal) (free : signal.TypeHasNoBar) :
    handleSignalingMessage role signal.text = if signal.lastField = [] then [] else signal.calls role := by
  cases signal with
  | description type sdp =>
    have fields := split_three (show bar ∉ descTag by decide) free (bar_not_mem_hexEncode sdp)
    simp only [hexEncode_eq_nil] at fields
    rw [handleSignalingMessage, LocalSignal.text, fields]
    by_cases empty : sdp = []
    · simp [LocalSignal.lastField, empty]
    · simp [LocalSignal.lastField, empty, LocalSignal.calls, hexDecode_hexEncode]
  | candidate mid line =>
    have tag : candTag ≠ descTag := by decide
    have fields := split_three (show bar ∉ candTag by decide) (bar_not_mem_hexEncode mid)
      (bar_not_mem_hexEncode line)
    simp only [hexEncode_eq_nil] at fields
    rw [handleSignalingMessage, LocalSignal.text, fields]
    by_cases empty : line = []
    · simp [LocalSignal.lastField, empty]
    · simp [LocalSignal.lastField, empty, LocalSignal.calls, hexDecode_hexEncode, tag]

/-- A signal arrives as it was sent exactly when its last field is not empty. -/
theorem signaling_roundtrip_iff (role : Role) (signal : LocalSignal) (free : signal.TypeHasNoBar) :
    handleSignalingMessage role signal.text = signal.calls role ↔ signal.lastField ≠ [] := by
  rw [handleSignalingMessage_text role signal free]
  split_ifs with empty
  · cases signal <;> simp [LocalSignal.calls, empty]
  · simp [empty]

/-- The end of the candidates of one medium is announced by an empty candidate. -/
private def lastCandidate : LocalSignal := .candidate (ascii ['0']) []

/-- The text ends behind the second bar, and the peer ignores it. -/
theorem signaling_roundtrip_fails : ¬ ∀ (role : Role) (signal : LocalSignal), signal.TypeHasNoBar →
    handleSignalingMessage role signal.text = signal.calls role := by
  intro roundtrip
  exact absurd (roundtrip .receiver lastCandidate trivial) (by decide)

/-- An offer is taken by the receiver, who answers. -/
theorem signaling_roundtrip_offer :
    handleSignalingMessage .receiver (LocalSignal.description offerType (ascii ['v', '=', '0'])).text =
      [.setRemoteDescription (ascii ['v', '=', '0']) offerType, .setLocalDescription] :=
  (signaling_roundtrip_iff .receiver (.description offerType (ascii ['v', '=', '0']))
    (show bar ∉ offerType by decide)).mpr (by decide)

end WeakNetVideo
