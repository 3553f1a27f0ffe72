import WeakNetVideo.Model.Rtp

/-! # Signaling messages

The two peers exchange descriptions and candidates as text: a tag and two fields, joined by a bar. What
may hold a bar is written in hexadecimal. The reader cuts the text at every bar.
-/

namespace WeakNetVideo

/-- A byte string of the source, for texts it writes as literals. -/
def ascii (text : List Char) : List Byte := text.map fun c => UInt8.ofNat c.toNat

/-! ## Utilities -/

/-- The calls of `std::getline` that `split` makes, with the characters extracted by the one under way.
The last call fails when it extracts nothing before the end of the text. -/
def getlines (delimiter : Byte) : List Byte → List Byte → List (List Byte)
  | item, [] => if item = [] then [] else [item]
  | item, c :: text =>
    if c = delimiter then item :: getlines delimiter [] text else getlines delimiter (item ++ [c]) text

/-- `split`. -/
def split (text : List Byte) (delimiter : Byte) : List (List Byte) := getlines delimiter [] text

/-- `kHex`, the lower-case digits. -/
def kHex : List Byte := ascii ['0', '1', '2', '3', '4', '5', '6', '7', '8', '9', 'a', 'b', 'c', 'd', 'e', 'f']

/-- `hex_encode`; both indices are below sixteen. -/
def hexEncode (input : List Byte) : List Byte :=
  input.flatMap fun (c : Byte) => [kHex.getD (c >>> 4).toNat 0, kHex.getD (c &&& 0x0f).toNat 0]

/-- The local function `value` of `hex_decode`; a negative `char` is a byte above all digits. -/
def hexValue (c : Byte) : Byte :=
  if 0x30 ≤ c ∧ c ≤ 0x39 then c - 0x30
  else if 0x61 ≤ c ∧ c ≤ 0x66 then c - 0x61 + 10
  else if 0x41 ≤ c ∧ c ≤ 0x46 then c - 0x41 + 10
  else 0

/-- `hex_decode`; an odd digit at the end is left out. -/
def hexDecode : List Byte → List Byte
  | high :: low :: input => (hexValue high <<< 4 ||| hexValue low) :: hexDecode input
  | _ => []

/-! ## The session -/

inductive Role where
  | sender
  | receiver
deriving DecidableEq, Repr

/-- What the peer connection hands to the two signaling callbacks. -/
inductive LocalSignal where
  | description (type sdp : List Byte)
  | candidate (mid line : List Byte)
deriving DecidableEq, Repr

/-- What `handle_signaling_message` calls on the peer connection. -/
inductive PeerCall where
  | setRemoteDescription (sdp type : List Byte)
  | setLocalDescription
  | addRemoteCandidate (line mid : List Byte)
deriving DecidableEq, Repr

/-- The delimiter of the format. -/
def bar : Byte := 0x7c

def descTag : List Byte := ascii ['D', 'E', 'S', 'C']
def candTag : List Byte := ascii ['C', 'A', 'N', 'D']
def offerType : List Byte := ascii ['o', 'f', 'f', 'e', 'r']

/-- The texts that `configure_signaling_callbacks` has the callbacks send. -/
def LocalSignal.text : LocalSignal → List Byte
  | .description type sdp => descTag ++ [bar] ++ type ++ [bar] ++ hexEncode sdp
  | .candidate mid line => candTag ++ [bar] ++ hexEncode mid ++ [bar] ++ hexEncode line

/-- `handle_signaling_message`, as the calls it makes when none of them throws. Both branches want three
fields. -/
def handleSignalingMessage (role : Role) (message : List Byte) : List PeerCall :=
  match split message bar with
  | tag :: first :: second :: _ =>
    if tag = descTag then
      .setRemoteDescription (hexDecode second) first ::
        if role = .receiver ∧ first = offerType then [.setLocalDescription] else []
    else if tag = candTag then [.addRemoteCandidate (hexDecode second) (hexDecode first)]
    else []
  | _ => []

end WeakNetVideo
