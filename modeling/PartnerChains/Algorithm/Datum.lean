import PartnerChains.Algorithm.Domain

/-!
# Plutus datums and their CBOR encoding

The encoder writes bytes in the order of the source. Heads are the canonical ones.
-/

namespace PartnerChains

inductive Datum where
  | integerDatum (value : ℤ)
  | byteStringDatum (bytes : ByteString)
  | constructorDatum (constructor : UInt64) (fields : List Datum)
  | listDatum (items : List Datum)
  | mapDatum (entries : List (Datum × Datum))

/-! ## Heads -/

namespace Cbor

/-- A head: the major type and its argument, in the fewest bytes. -/
def typeLen (major : UInt8) (argument : ℕ) : ByteString :=
  if argument ≤ 0x17 then [major + UInt8.ofNat argument]
  else if argument ≤ 0xff then (major + 24) :: (Bytes.ofNatBigEndian 1 argument).val
  else if argument ≤ 0xffff then (major + 25) :: (Bytes.ofNatBigEndian 2 argument).val
  else if argument ≤ 0xffffffff then (major + 26) :: (Bytes.ofNatBigEndian 4 argument).val
  else (major + 27) :: (Bytes.ofNatBigEndian 8 argument).val

def u64 (value : ℕ) : ByteString := typeLen 0x00 value

/-- A negative number is written as its distance from minus one. -/
def i64 (value : ℤ) : ByteString :=
  if 0 ≤ value then u64 value.toNat else typeLen 0x20 (-1 - value).toNat

def bytes (value : ByteString) : ByteString := typeLen 0x40 value.length ++ value

def beginBytes : ByteString := [0x5f]

def array (length : ℕ) : ByteString := typeLen 0x80 length

def beginArray : ByteString := [0x9f]

def map (length : ℕ) : ByteString := typeLen 0xa0 length

def tag (value : ℕ) : ByteString := typeLen 0xc0 value

def endIndefinite : ByteString := [0xff]

end Cbor

/-! ## Datums -/

namespace Datum

def posBignum : ℕ := 2

def negBignum : ℕ := 3

def bytesChunkSizeLimit : ℕ := 64

def constructorOverLimitTag : ℕ := 102

def chunks (size : ℕ) (bytes : ByteString) : List ByteString :=
  (List.range ((bytes.length + size - 1) / size)).map fun i => (bytes.drop (i * size)).take size

def encodeBytestring (bytes : ByteString) : ByteString :=
  if bytes.length ≤ bytesChunkSizeLimit then Cbor.bytes bytes
  else Cbor.beginBytes ++ ((chunks bytesChunkSizeLimit bytes).map Cbor.bytes).flatten ++
    Cbor.endIndefinite

/-- The magnitude of a number, without leading zeros. -/
def magnitudeBytes (value : ℤ) : ByteString :=
  (Nat.digits 256 value.natAbs).reverse.map UInt8.ofNat

/-- What does not fit a signed 64-bit number is a bignum: a tag and the magnitude. -/
def encodeInteger (value : ℤ) : ByteString :=
  if -2 ^ 63 ≤ value ∧ value < 2 ^ 63 then Cbor.i64 value
  else Cbor.tag (if 0 < value then posBignum else negBignum) ++
    encodeBytestring (magnitudeBytes value)

def constructorSmallTag (value : ℕ) : ℕ := value + 121

def constructorBigTag (value : ℕ) : ℕ := 1280 + value - 7

/-- What precedes the fields of a constructor. -/
def encodeConstructorTag (constructor : ℕ) : ByteString :=
  if constructor < 7 then Cbor.tag (constructorSmallTag constructor)
  else if constructor < 128 then Cbor.tag (constructorBigTag constructor)
  else Cbor.tag constructorOverLimitTag ++ Cbor.array 2 ++ Cbor.u64 constructor

mutual

def encodeDatum : Datum → ByteString
  | integerDatum value => encodeInteger value
  | byteStringDatum bytes => encodeBytestring bytes
  | constructorDatum constructor fields =>
      encodeConstructorTag constructor.toNat ++ encodeLinearSeq fields
  | listDatum items => encodeLinearSeq items
  | mapDatum entries => Cbor.map entries.length ++ encodeEntries entries

/-- An empty sequence has a definite length, any other one an indefinite length. -/
def encodeLinearSeq : List Datum → ByteString
  | [] => Cbor.array 0
  | item :: items =>
      Cbor.beginArray ++ (encodeDatum item ++ encodeItems items) ++ Cbor.endIndefinite

def encodeItems : List Datum → ByteString
  | [] => []
  | item :: items => encodeDatum item ++ encodeItems items

def encodeEntries : List (Datum × Datum) → ByteString
  | [] => []
  | (key, value) :: entries => encodeDatum key ++ encodeDatum value ++ encodeEntries entries

end

end Datum

/-! ## What is sent as a datum -/

def McTxHash.toDatum (hash : McTxHash) : Datum :=
  .constructorDatum 0 [.byteStringDatum hash.val]

def UtxoId.toDatum (utxo : UtxoId) : Datum :=
  .constructorDatum 0 [McTxHash.toDatum utxo.txHash, .integerDatum utxo.index]

end PartnerChains
