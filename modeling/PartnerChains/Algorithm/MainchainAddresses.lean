import PartnerChains.Library.Scale
import PartnerChains.Algorithm.PlutusData

/-!
# Main chain addresses as bytes

An address is kept as the bytes of its text. It is read from plain text, from JSON, where the text
may also be the hexadecimal form of these bytes, and from SCALE, which takes any bytes.
-/

namespace PartnerChains

open Reading

def maxMainchainAddressBytes : ℕ := 120

abbrev MainchainAddressBytes := BoundedVec UInt8 maxMainchainAddressBytes

namespace MainchainAddressBytes

def textBytes (text : String) : ByteString := text.toUTF8.data.toList

def fromStr (text : String) : Except String MainchainAddressBytes :=
  match BoundedVec.tryFrom maxMainchainAddressBytes (textBytes text) with
  | some address => .ok address
  | none => .error "Invalid length"

/-- The text of the address. A panic also names the first byte that is not valid. -/
def expectText (message : String) (address : MainchainAddressBytes) : Except Panic String :=
  match GovernedMapDatum.stringFromUtf8 address.toList with
  | some text => .ok text
  | none => .error ⟨message⟩

def display : MainchainAddressBytes → Except Panic String :=
  expectText "MainchainAddressString is always properly encoded UTF-8"

def serialize : MainchainAddressBytes → Except Panic String :=
  expectText "MainchainAddress is always valid UTF-8"

/-- Text that the library can read as hexadecimal is read so. -/
def deserialize (fromHex : String → Option ByteString) (text : String) :
    Except String MainchainAddressBytes :=
  let bytes := (fromHex text).getD (textBytes text)
  match BoundedVec.tryFrom maxMainchainAddressBytes bytes with
  | some address => .ok address
  | none => .error "MainchainAddress is too long"

def encode (address : MainchainAddressBytes) : Except Panic ByteString :=
  Scale.encodeBytes address.toList

def decode : Reader UInt8 MainchainAddressBytes :=
  andThen Scale.readBytes fun bytes =>
    match BoundedVec.tryFrom maxMainchainAddressBytes bytes with
    | some address => done address
    | none => fail

end MainchainAddressBytes

end PartnerChains
