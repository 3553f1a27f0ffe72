import WeakNetVideo.Model.HeaderExtension
import Mathlib.Data.FinEnum
import Mathlib.Data.List.GetD
import Mathlib.Tactic.Common

/-! # Walking and rewriting a header extension

The walk from an offset obeys the four turns of the loop. A writer keeps the body up to the last
element, so on the rewritten body the same walk visits the old elements and then the appended one,
and the rebuilt packet has the old fixed header, the new body and the old payload.
-/

namespace WeakNetVideo

open BigEndian

/-- The walk from an offset with all the fuel it can use. -/
def walk (body : List Byte) (offset : ℕ) : List Element :=
  elementsFrom body (body.length - offset) offset

theorem elements_eq_walk (body : List Byte) : elements body = walk body 0 := rfl

theorem lt_next (body : List Byte) (offset : ℕ) : offset < (elementAt body offset).next := by
  simp only [elementAt, Element.next]
  omega

/-- Fuel beyond the rest of the body changes nothing. -/
theorem elementsFrom_eq_walk (body : List Byte) (fuel offset : ℕ)
    (enough : body.length - offset ≤ fuel) : elementsFrom body fuel offset = walk body offset := by
  induction fuel using Nat.strong_induction_on generalizing offset with
  | h fuel ih =>
    unfold walk
    cases fuel with
    | zero => rw [Nat.le_zero.mp enough]
    | succ fuel =>
      by_cases inside : offset < body.length
      · obtain ⟨rest, rest_eq⟩ : ∃ rest, body.length - offset = rest + 1 := ⟨_, (Nat.succ_pred (by omega)).symm⟩
        have advance := lt_next body offset
        have same (next : ℕ) (further : offset < next) :
            elementsFrom body fuel next = elementsFrom body rest next := by
          rw [ih fuel (by omega) next (by omega)]
          by_cases short : rest < fuel + 1
          · exact (ih rest short next (by omega)).symm
          · omega
        simp only [rest_eq, elementsFrom, inside, if_true, same _ (Nat.lt_succ_self offset),
          same _ advance]
      · have outside : body.length - offset = 0 := by omega
        simp only [outside, elementsFrom, if_neg inside]

theorem walk_end {body : List Byte} {offset : ℕ} (outside : body.length ≤ offset) :
    walk body offset = [] := by
  rw [walk, Nat.sub_eq_zero_of_le outside]
  rfl

private theorem walk_unfold {body : List Byte} {offset : ℕ} (inside : offset < body.length) :
    walk body offset =
      if body.getD offset 0 = 0 then walk body (offset + 1)
      else if (elementAt body offset).id = 15 ∨ (elementAt body offset).next > body.length then []
      else elementAt body offset :: walk body (elementAt body offset).next := by
  have advance := lt_next body offset
  rw [← elementsFrom_eq_walk body (body.length - offset - 1) (offset + 1) (by omega),
    ← elementsFrom_eq_walk body (body.length - offset - 1) (elementAt body offset).next (by omega),
    walk, ← Nat.succ_pred (show body.length - offset ≠ 0 by omega)]
  simp only [Nat.succ_eq_add_one, elementsFrom, inside, if_true, Nat.pred_eq_sub_one,
    Nat.add_sub_cancel]

/-- A padding byte is skipped. -/
theorem walk_padding {body : List Byte} {offset : ℕ} (inside : offset < body.length)
    (zero : body.getD offset 0 = 0) : walk body offset = walk body (offset + 1) := by
  rw [walk_unfold inside, if_pos zero]

/-- A complete element is visited and the walk goes on behind it. -/
theorem walk_element {body : List Byte} {offset : ℕ} (inside : offset < body.length)
    (nonzero : body.getD offset 0 ≠ 0) (id : (elementAt body offset).id ≠ 15)
    (fits : (elementAt body offset).next ≤ body.length) :
    walk body offset = elementAt body offset :: walk body (elementAt body offset).next := by
  rw [walk_unfold inside, if_neg nonzero, if_neg (by simp only [not_or]; exact ⟨id, by omega⟩)]

/-- Induction along the walk: over the padding that is skipped and the elements that are visited, up to where it
ends. -/
private theorem walk_induction (body : List Byte) {motive : ℕ → Prop}
    (ends : ∀ offset, walk body offset = [] → motive offset)
    (padding : ∀ offset, offset < body.length → body.getD offset 0 = 0 → motive (offset + 1) → motive offset)
    (element : ∀ offset, offset < body.length → body.getD offset 0 ≠ 0 → (elementAt body offset).id ≠ 15 →
      (elementAt body offset).next ≤ body.length → motive (elementAt body offset).next → motive offset)
    (offset : ℕ) : motive offset := by
  induction rest : body.length - offset using Nat.strong_induction_on generalizing offset with
  | h _ ih =>
    by_cases inside : offset < body.length
    · have advance := lt_next body offset
      by_cases zero : body.getD offset 0 = 0
      · exact padding offset inside zero (ih (body.length - (offset + 1)) (by omega) _ rfl)
      · by_cases stop : (elementAt body offset).id = 15 ∨ (elementAt body offset).next > body.length
        · exact ends offset (by rw [walk_unfold inside, if_neg zero, if_pos stop])
        · obtain ⟨id, fits⟩ := not_or.mp stop
          exact element offset inside zero id (Nat.le_of_not_gt fits)
            (ih (body.length - (elementAt body offset).next) (by omega) _ rfl)
    · exact ends offset (walk_end (Nat.le_of_not_lt inside))

/-- Nothing but padding is walked without a visit. -/
theorem walk_zeros {body : List Byte} {first last : ℕ} (order : first ≤ last)
    (bound : last ≤ body.length) (zeros : ∀ i, first ≤ i → i < last → body.getD i 0 = 0) :
    walk body first = walk body last := by
  induction order using Nat.decreasingInduction with
  | of_succ k _ ih =>
    rw [walk_padding (by omega) (zeros k (Nat.le_refl k) (by omega))]
    exact ih fun i lower upper => zeros i (by omega) upper
  | self => rfl

private def usedFrom (used : ℕ) (visited : List Element) : ℕ :=
  visited.foldl (fun _ element => element.next) used

private theorem le_usedFrom (body : List Byte) {offset used : ℕ} (start : used ≤ offset)
    (inBody : used ≤ body.length) :
    used ≤ usedFrom used (walk body offset) ∧ usedFrom used (walk body offset) ≤ body.length := by
  induction offset using walk_induction body generalizing used with
  | ends offset ended =>
    rw [ended]
    exact ⟨Nat.le_refl _, inBody⟩
  | padding offset inside zero ih =>
    rw [walk_padding inside zero]
    exact ih (by omega) inBody
  | element offset inside nonzero id fits ih =>
    have advance := lt_next body offset
    rw [walk_element inside nonzero id fits]
    obtain ⟨lower, upper⟩ := ih (Nat.le_refl (elementAt body offset).next) fits
    exact ⟨by simp only [usedFrom, List.foldl_cons]; exact Nat.le_trans (by omega) lower, upper⟩

theorem usedSize_le (body : List Byte) : usedSize body ≤ body.length :=
  (le_usedFrom body (Nat.le_refl 0) (Nat.zero_le _)).2

private theorem next_le_usedFrom (body : List Byte) {offset used : ℕ} (start : used ≤ offset)
    (inBody : used ≤ body.length) :
    ∀ element ∈ walk body offset, element.next ≤ usedFrom used (walk body offset) := by
  induction offset using walk_induction body generalizing used with
  | ends offset ended =>
    rw [ended]
    exact fun _ none => absurd none List.not_mem_nil
  | padding offset inside zero ih =>
    rw [walk_padding inside zero]
    exact ih (by omega) inBody
  | element offset inside nonzero id fits ih =>
    have least := (le_usedFrom body (Nat.le_refl (elementAt body offset).next) fits).1
    rw [walk_element inside nonzero id fits]
    intro element member
    rcases List.mem_cons.mp member with rfl | later
    · exact least
    · exact ih (Nat.le_refl _) fits element later

/-- All elements lie in what a writer keeps. -/
theorem next_le_usedSize (body : List Byte) : ∀ element ∈ elements body, element.next ≤ usedSize body :=
  next_le_usedFrom body (Nat.le_refl 0) (Nat.zero_le _)

/-- The invariant of the rewriting: from the end of the last element on there was only padding, so
any body that agrees up to the used size is walked alike, then from the used size on. -/
private theorem walk_rewritten {body other : List Byte} {offset used : ℕ} (start : used ≤ offset)
    (inBody : offset ≤ body.length)
    (zeros : ∀ i, used ≤ i → i < offset → body.getD i 0 = 0)
    (longer : usedFrom used (walk body offset) ≤ other.length)
    (agree : ∀ i, i < usedFrom used (walk body offset) → other.getD i 0 = body.getD i 0) :
    walk other used = walk body offset ++ walk other (usedFrom used (walk body offset)) := by
  induction offset using walk_induction body generalizing used with
  | ends offset ended =>
    rw [ended]
    rfl
  | padding offset inside zero ih =>
    rw [walk_padding inside zero] at longer agree ⊢
    refine ih (by omega) (by omega) ?_ longer agree
    intro i lower upper
    rcases Nat.lt_succ_iff_lt_or_eq.mp upper with before | rfl
    · exact zeros i lower before
    · exact zero
  | element offset inside nonzero id fits ih =>
    have advance := lt_next body offset
    have bounds := le_usedFrom body (Nat.le_refl (elementAt body offset).next) fits
    rw [walk_element inside nonzero id fits] at longer agree ⊢
    simp only [usedFrom, List.foldl_cons] at longer agree ⊢
    rw [← usedFrom] at longer agree ⊢
    have same : elementAt other offset = elementAt body offset := by
      simp only [elementAt, agree offset (by omega)]
    have tail := ih (Nat.le_refl _) fits (fun i lower upper => by omega) longer agree
    rw [walk_zeros start (by omega) fun i lower upper => by
      rw [agree i (by omega)]; exact zeros i lower upper]
    rw [walk_element (by omega) (by rw [agree offset (by omega)]; exact nonzero)
      (by rw [same]; exact id) (by rw [same]; omega), same, tail, List.cons_append]

/-- The body a writer leaves: the old elements, then the appended one at the used size. -/
theorem elements_rewritten (body value : List Byte) (descriptor : Byte) (padding : ℕ)
    (nonzero : descriptor ≠ 0) (id : descriptor >>> 4 ≠ 15)
    (size : value.length = (descriptor &&& 0x0f).toNat + 1) :
    elements (body.take (usedSize body) ++ (descriptor :: value ++ List.replicate padding 0)) =
      elements body ++ [⟨usedSize body, descriptor >>> 4, value.length⟩] := by
  have used := usedSize_le body
  generalize other_eq :
    body.take (usedSize body) ++ (descriptor :: value ++ List.replicate padding 0) = other
  have kept : (body.take (usedSize body)).length = usedSize body := by
    rw [List.length_take, Nat.min_eq_left used]
  have length : other.length = usedSize body + 1 + value.length + padding := by
    rw [← other_eq]
    simp only [List.length_append, kept, List.length_cons, List.length_replicate]
    omega
  have agree (i : ℕ) (before : i < usedSize body) : other.getD i 0 = body.getD i 0 := by
    rw [← other_eq, List.getD_append _ _ _ _ (by omega), List.getD_eq_getElem?_getD,
      List.getElem?_take_of_lt before, ← List.getD_eq_getElem?_getD]
  have behind (i : ℕ) : other.getD (usedSize body + i) 0 =
      (descriptor :: value ++ List.replicate padding 0).getD i 0 := by
    rw [← other_eq, List.getD_append_right _ _ _ _ (by omega), kept, Nat.add_sub_cancel_left]
  have first : other.getD (usedSize body) 0 = descriptor := by simpa using behind 0
  have zeros (i : ℕ) (lower : usedSize body + 1 + value.length ≤ i) (upper : i < other.length) :
      other.getD i 0 = 0 := by
    obtain ⟨j, rfl⟩ := Nat.exists_eq_add_of_le lower
    rw [show usedSize body + 1 + value.length + j = usedSize body + ((value.length + 1) + j) by omega,
      behind, List.getD_append_right _ _ _ _ (by simp only [List.length_cons]; omega)]
    exact List.getD_replicate 0 (by simp only [List.length_cons]; omega)
  have appended : elementAt other (usedSize body) = ⟨usedSize body, descriptor >>> 4, value.length⟩ := by
    simp only [elementAt, first, size]
  have visited := @walk_rewritten body other 0 0 (Nat.le_refl 0) (Nat.zero_le body.length)
    (fun i _ upper => by omega) (by change usedSize body ≤ _; omega) agree
  change walk other 0 = walk body 0 ++ walk other (usedSize body) at visited
  have last : walk other (usedSize body) = [⟨usedSize body, descriptor >>> 4, value.length⟩] := by
    rw [walk_element (by omega) (by rw [first]; exact nonzero) (by rw [appended]; exact id)
      (by rw [appended]; simp only [Element.next]; omega), appended]
    congr 1
    simp only [Element.next]
    exact (@walk_zeros other _ other.length (by omega) (Nat.le_refl _) zeros).trans
      (walk_end (Nat.le_refl _))
  rw [elements_eq_walk, elements_eq_walk, visited, last]

/-! ## The rebuilt packet -/

theorem csrc_of_extension_bit (first : Byte) : (first ||| 0x10) &&& 0x0f = first &&& 0x0f := by
  revert first
  decide +kernel

theorem extension_of_extension_bit (first : Byte) : (first ||| 0x10) &&& 0x10 ≠ 0 := by
  revert first
  decide +kernel

/-- A padded body is a whole number of words. -/
theorem length_padToWord (body : List Byte) : (padToWord body).length / 4 * 4 = (padToWord body).length := by
  simp only [padToWord, List.length_append, List.length_replicate]
  omega

theorem length_padToWord_le (body : List Byte) : (padToWord body).length ≤ body.length + 3 := by
  simp only [padToWord, List.length_append, List.length_replicate]
  omega

/-- What the reader of an extension has checked. -/
theorem readableExtension_some {bytes body : List Byte} (read : readableExtension bytes = some body) :
    Rtp.fixedHeaderSize bytes + 4 + body.length ≤ bytes.length := by
  unfold readableExtension at read
  dsimp only at read
  split_ifs at read with clear short profile truncated
  cases read
  simp only [List.length_take, List.length_drop, Rtp.extensionHeaderSize] at *
  omega

/-- A writer starts from the elements of a body that it could read, or from none where there is no body. -/
theorem oldExtension_cases {bytes kept : List Byte} {payloadOffset : ℕ}
    (old : oldExtension bytes = some (kept, payloadOffset)) :
    Rtp.fixedHeaderSize bytes ≤ bytes.length ∧
      ((Rtp.extension bytes = true ∧ ∃ body, readableExtension bytes = some body ∧
          kept = body.take (usedSize body) ∧ payloadOffset = Rtp.fixedHeaderSize bytes + 4 + body.length) ∨
        (Rtp.extension bytes = false ∧ kept = [] ∧ payloadOffset = Rtp.fixedHeaderSize bytes)) := by
  unfold oldExtension at old
  dsimp only at old
  split_ifs at old with short present
  · obtain ⟨body, read, same⟩ := Option.map_eq_some_iff.mp old
    cases same
    exact ⟨not_lt.mp short, .inl ⟨present, body, read, rfl, rfl⟩⟩
  · cases old
    exact ⟨not_lt.mp short, .inr ⟨Bool.eq_false_of_not_eq_true present, rfl, rfl⟩⟩

/-- A writer goes on only with a header, a kept body and a payload that are inside the packet. -/
theorem oldExtension_some {bytes kept : List Byte} {payloadOffset : ℕ}
    (old : oldExtension bytes = some (kept, payloadOffset)) :
    Rtp.fixedHeaderSize bytes ≤ bytes.length ∧ kept.length ≤ bytes.length := by
  obtain ⟨fits, ⟨-, body, read, rfl, -⟩ | ⟨-, rfl, -⟩⟩ := oldExtension_cases old
  · have inside := readableExtension_some read
    rw [List.length_take]
    omega
  · exact ⟨fits, Nat.zero_le _⟩

section Rewritten

variable {bytes kept element : List Byte} {payloadOffset : ℕ}

/-- The parts of a rebuilt packet in front of its new body. -/
def rewrittenHeader (bytes : List Byte) : List Byte :=
  (bytes.take (Rtp.fixedHeaderSize bytes)).modify 0 (· ||| 0x10)

theorem rewriteExtension_of_old (old : oldExtension bytes = some (kept, payloadOffset)) :
    rewriteExtension bytes element = rewrittenHeader bytes ++
      (bytesU16 oneByteExtensionProfile ++
        (bytesU16 (UInt16.ofNat ((padToWord (kept ++ element)).length / 4)) ++
          (padToWord (kept ++ element) ++ bytes.drop payloadOffset))) := by
  simp only [rewriteExtension, old, rewrittenHeader]

theorem length_rewrittenHeader (fits : Rtp.fixedHeaderSize bytes ≤ bytes.length) :
    (rewrittenHeader bytes).length = Rtp.fixedHeaderSize bytes := by
  rw [rewrittenHeader, List.length_modify, List.length_take, Nat.min_eq_left fits]

theorem headerSize_le_fixedHeaderSize (bytes : List Byte) : 12 ≤ Rtp.fixedHeaderSize bytes := by
  simp only [Rtp.fixedHeaderSize, Rtp.headerSize]
  omega

/-- Every header byte but the first is copied. -/
theorem rewriteExtension_getElem? (old : oldExtension bytes = some (kept, payloadOffset)) {index : ℕ}
    (positive : 0 < index) (inHeader : index < Rtp.fixedHeaderSize bytes) :
    (rewriteExtension bytes element)[index]? = bytes[index]? := by
  have fits := (oldExtension_some old).1
  rw [rewriteExtension_of_old old,
    List.getElem?_append_left (by rw [length_rewrittenHeader fits]; exact inHeader), rewrittenHeader,
    List.getElem?_modify, List.getElem?_take_of_lt inHeader]
  simp only [show ¬(0 = index) by omega, if_false, Option.map_eq_map, Option.map_id']

/-- The first byte keeps everything and gains the extension bit. -/
theorem rewriteExtension_first (old : oldExtension bytes = some (kept, payloadOffset)) :
    Rtp.byteAt (rewriteExtension bytes element) 0 = Rtp.byteAt bytes 0 ||| 0x10 := by
  have fits := (oldExtension_some old).1
  have least := headerSize_le_fixedHeaderSize bytes
  have present : bytes[0]? = some (bytes.get ⟨0, by omega⟩) := List.getElem?_eq_getElem _
  rw [Rtp.byteAt, Rtp.byteAt, List.getD_eq_getElem?_getD, List.getD_eq_getElem?_getD,
    rewriteExtension_of_old old,
    List.getElem?_append_left (by rw [length_rewrittenHeader fits]; omega), rewrittenHeader,
    List.getElem?_modify, List.getElem?_take_of_lt (by omega), present]
  rfl

theorem extension_rewriteExtension (old : oldExtension bytes = some (kept, payloadOffset)) :
    Rtp.extension (rewriteExtension bytes element) = true := by
  rw [Rtp.extension, rewriteExtension_first old]
  exact decide_eq_true (extension_of_extension_bit _)

theorem fixedHeaderSize_rewriteExtension (old : oldExtension bytes = some (kept, payloadOffset)) :
    Rtp.fixedHeaderSize (rewriteExtension bytes element) = Rtp.fixedHeaderSize bytes := by
  rw [Rtp.fixedHeaderSize, Rtp.fixedHeaderSize, Rtp.csrcCount, Rtp.csrcCount,
    rewriteExtension_first old, csrc_of_extension_bit]

/-- A reader of the rebuilt packet walks exactly the new body. -/
theorem readableExtension_rewriteExtension (old : oldExtension bytes = some (kept, payloadOffset))
    (small : kept.length + element.length < 4 * 65535) :
    readableExtension (rewriteExtension bytes element) = some (padToWord (kept ++ element)) := by
  have fits := (oldExtension_some old).1
  have header := length_rewrittenHeader fits
  have words := length_padToWord (kept ++ element)
  have bound := length_padToWord_le (kept ++ element)
  rw [List.length_append] at bound
  set body := padToWord (kept ++ element) with body_eq
  have parts : rewriteExtension bytes element = _ := rewriteExtension_of_old old
  rw [← body_eq] at parts
  have profile : Rtp.profileSpecificId (rewriteExtension bytes element) (Rtp.fixedHeaderSize bytes) =
      oneByteExtensionProfile := by
    rw [Rtp.profileSpecificId, parts, readU16_append _ _ _ _ header.symm]
  have length : Rtp.headerLength (rewriteExtension bytes element) (Rtp.fixedHeaderSize bytes) * 4 =
      body.length := by
    rw [Rtp.headerLength, parts, ← List.append_assoc, readU16_append _ _ _ _ (by simp [header]),
      UInt16.toNat_ofNat_of_lt' (by simp only [UInt16.size]; omega), words]
  have behind : (rewriteExtension bytes element).drop (Rtp.fixedHeaderSize bytes + 4) =
      body ++ bytes.drop payloadOffset := by
    rw [parts, ← List.append_assoc, ← List.append_assoc, List.drop_left' (by simp [header])]
  have total : Rtp.fixedHeaderSize bytes + 4 + body.length ≤ (rewriteExtension bytes element).length := by
    rw [parts]
    simp only [List.length_append, length_bytesU16, header]
    omega
  unfold readableExtension
  simp only [fixedHeaderSize_rewriteExtension old, extension_rewriteExtension old, profile, length,
    Bool.not_true, Bool.false_eq_true, if_false, ne_eq, not_true_eq_false, Rtp.extensionHeaderSize]
  rw [if_neg (by omega), if_neg (by omega), behind, List.take_left' rfl]

end Rewritten

end WeakNetVideo
