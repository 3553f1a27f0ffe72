import WeakNetVideo.Model.Rtp

/-! # One-byte header extensions

Two writers and two readers walk the body of a `0xBEDE` header extension with the same loop: a zero
byte is padding, id 15 and an element that overruns the body stop the walk, anything else is an
element of one descriptor byte and up to sixteen value bytes. The writers drop what follows the last
element, append their own, pad to a word and rebuild the packet around it.
-/

namespace WeakNetVideo

open BigEndian

/-- `kOneByteExtensionProfile`. -/
def oneByteExtensionProfile : UInt16 := 0xbede

/-- An element of the walk: where its descriptor is, its id and the size of its value. -/
structure Element where
  offset : ℕ
  id : Byte
  valueSize : ℕ
deriving DecidableEq, Repr

/-- The offset behind an element. -/
def Element.next (element : Element) : ℕ := element.offset + 1 + element.valueSize

/-- What a nonzero descriptor byte announces. -/
def elementAt (body : List Byte) (offset : ℕ) : Element where
  offset := offset
  id := body.getD offset 0 >>> 4
  valueSize := (body.getD offset 0 &&& 0x0f).toNat + 1

/-- The elements the loop visits from an offset on; every turn advances, so the size of the body
is fuel enough. -/
def elementsFrom (body : List Byte) : ℕ → ℕ → List Element
  | 0, _ => []
  | fuel + 1, offset =>
    if offset < body.length then
      if body.getD offset 0 = 0 then elementsFrom body fuel (offset + 1)
      else
        let element := elementAt body offset
        if element.id = 15 ∨ element.next > body.length then []
        else element :: elementsFrom body fuel element.next
    else []

def elements (body : List Byte) : List Element := elementsFrom body body.length 0

/-- The bytes a writer keeps: `used` is set behind every element it passes. -/
def usedSize (body : List Byte) : ℕ :=
  (elements body).foldl (fun _ element => element.next) 0

/-- The extension body a reader walks, when its headers are there and fit the message. -/
def readableExtension (bytes : List Byte) : Option (List Byte) :=
  let fixed := Rtp.fixedHeaderSize bytes
  if !Rtp.extension bytes then none
  else if bytes.length < fixed + Rtp.extensionHeaderSize then none
  else if Rtp.profileSpecificId bytes fixed ≠ oneByteExtensionProfile then none
  else
    let bodySize := Rtp.headerLength bytes fixed * 4
    if bytes.length < fixed + Rtp.extensionHeaderSize + bodySize then none
    else some ((bytes.drop (fixed + Rtp.extensionHeaderSize)).take bodySize)

/-- The elements a writer keeps and the offset of the old payload; none where it returns early. -/
def oldExtension (bytes : List Byte) : Option (List Byte × ℕ) :=
  let fixed := Rtp.fixedHeaderSize bytes
  if bytes.length < fixed then none
  else if Rtp.extension bytes then
    (readableExtension bytes).map fun body =>
      (body.take (usedSize body), fixed + Rtp.extensionHeaderSize + body.length)
  else some ([], fixed)

/-- Zero bytes up to the next multiple of four. -/
def padToWord (body : List Byte) : List Byte :=
  body ++ List.replicate ((4 - body.length % 4) % 4) 0

/-- The message with one element appended to its header extension. -/
def rewriteExtension (bytes element : List Byte) : List Byte :=
  match oldExtension bytes with
  | none => bytes
  | some (kept, payloadOffset) =>
    let body := padToWord (kept ++ element)
    (bytes.take (Rtp.fixedHeaderSize bytes)).modify 0 (· ||| 0x10) ++
      (bytesU16 oneByteExtensionProfile ++ (bytesU16 (UInt16.ofNat (body.length / 4)) ++
        (body ++ bytes.drop payloadOffset)))

end WeakNetVideo
