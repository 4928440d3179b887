import PartnerChains.Library.Checked
import PartnerChains.Library.Reading

/-!
# The SCALE codec: compact numbers, byte strings and vectors

A vector is written as its length and its elements one after the other. The length is a compact
number of 32 bits; the two low bits of its first byte say how many bytes it takes.
-/

namespace PartnerChains.Scale

open Reading Fallible

variable {α : Type}

/-! ## Little-endian numbers -/

/-- The low bytes of a number, least significant first. -/
def littleEndian : ℕ → ℕ → List UInt8
  | 0, _ => []
  | count + 1, value => UInt8.ofNat value :: littleEndian count (value / 256)

def ofLittleEndian (bytes : List UInt8) : ℕ :=
  bytes.foldr (fun byte value => byte.toNat + 256 * value) 0

theorem length_littleEndian (count value : ℕ) : (littleEndian count value).length = count := by
  induction count generalizing value with
  | zero => rfl
  | succ count ih => simp [littleEndian, ih]

theorem ofLittleEndian_littleEndian {count value : ℕ} (h : value < 256 ^ count) :
    ofLittleEndian (littleEndian count value) = value := by
  induction count generalizing value with
  | zero =>
      have hzero : value = 0 := by simpa using h
      simp [littleEndian, ofLittleEndian, hzero]
  | succ count ih =>
      have hrest : value / 256 < 256 ^ count := by
        rw [Nat.div_lt_iff_lt_mul (by norm_num)]
        simpa [pow_succ] using h
      have hvalue := ih hrest
      simp only [littleEndian, ofLittleEndian, List.foldr_cons, UInt8.toNat_ofNat'] at hvalue ⊢
      omega

def readNumber (count : ℕ) : Reader UInt8 ℕ :=
  andThen (readTake count) fun bytes => done (ofLittleEndian bytes)

theorem reads_readNumber {count value : ℕ} (h : value < 256 ^ count) :
    Reads (readNumber count) (littleEndian count value) value := by
  have hread := (reads_readTake (littleEndian count value)).map ofLittleEndian
  rw [ofLittleEndian_littleEndian h, length_littleEndian] at hread
  exact hread

/-! ## Compact numbers -/

/-- A number of 32 bits. -/
def compact (value : ℕ) : List UInt8 :=
  if value < 2 ^ 6 then littleEndian 1 (4 * value)
  else if value < 2 ^ 14 then littleEndian 2 (4 * value + 1)
  else if value < 2 ^ 30 then littleEndian 4 (4 * value + 2)
  else 3 :: littleEndian 4 value

/-- A number above its two low bits, which is not accepted if it fits in fewer bytes. -/
def readShifted (count least : ℕ) : Reader UInt8 ℕ :=
  andThen (readNumber count) fun value =>
    if least ≤ value / 4 then done (value / 4) else fail

def readCompact : Reader UInt8 ℕ
  | [] => none
  | first :: rest =>
      match first.toNat % 4 with
      | 0 => some (first.toNat / 4, rest)
      | 1 => readShifted 2 (2 ^ 6) (first :: rest)
      | 2 => readShifted 4 (2 ^ 14) (first :: rest)
      | _ =>
          if first.toNat / 4 = 0 then
            andThen (readNumber 4)
              (fun value => if 2 ^ 30 ≤ value then done value else fail) rest
          else none

theorem reads_readShifted (count : ℕ) {least value bits : ℕ} (hbits : bits < 4)
    (hleast : least ≤ value) (h : 4 * value + bits < 256 ^ count) :
    Reads (readShifted count least) (littleEndian count (4 * value + bits)) value := by
  have hvalue : (4 * value + bits) / 4 = value := by omega
  intro rest
  rw [readShifted, andThen, reads_readNumber h rest]
  simp [hvalue, hleast, done]

theorem toNat_ofNat_mod_four (value : ℕ) : (UInt8.ofNat value).toNat % 4 = value % 4 := by
  rw [UInt8.toNat_ofNat']
  omega

theorem reads_compact {value : ℕ} (h : value < 2 ^ 32) :
    Reads readCompact (compact value) value := by
  unfold compact
  split_ifs with hone htwo hfour
  · intro rest
    have hbyte : (UInt8.ofNat (4 * value)).toNat = 4 * value := by
      rw [UInt8.toNat_ofNat']
      omega
    have hmode : 4 * value % 4 = 0 := by omega
    have hvalue : 4 * value / 4 = value := by omega
    simp only [littleEndian, List.cons_append, List.nil_append, readCompact, hbyte, hmode, hvalue]
  · have hmode : (UInt8.ofNat (4 * value + 1)).toNat % 4 = 1 := by
      rw [toNat_ofNat_mod_four]
      omega
    have hread := reads_readShifted 2 (by omega : 1 < 4) (by omega : 2 ^ 6 ≤ value) (by omega)
    intro rest
    simpa [littleEndian, readCompact, hmode] using hread rest
  · have hmode : (UInt8.ofNat (4 * value + 2)).toNat % 4 = 2 := by
      rw [toNat_ofNat_mod_four]
      omega
    have hread := reads_readShifted 4 (by omega : 2 < 4) (by omega : 2 ^ 14 ≤ value) (by omega)
    intro rest
    simpa [littleEndian, readCompact, hmode] using hread rest
  · intro rest
    have hbig : 1073741824 ≤ value := by omega
    have hread := reads_readNumber (by omega : value < 256 ^ 4) rest
    simp [readCompact, andThen, hread, hbig, done]

/-! ## Byte strings and vectors -/

/-- A longer vector is not written. -/
def encodeLength (length : ℕ) : Except Panic (List UInt8) :=
  if length < 2 ^ 32 then .ok (compact length) else .error ⟨"Compact encodes length"⟩

def encodeBytes (bytes : List UInt8) : Except Panic (List UInt8) := do
  let length ← encodeLength bytes.length
  .ok (length ++ bytes)

def encodeVec (write : α → Except Panic (List UInt8)) (xs : List α) :
    Except Panic (List UInt8) := do
  let length ← encodeLength xs.length
  let items ← xs.mapM write
  .ok (length ++ items.flatten)

def readBytes : Reader UInt8 (List UInt8) := andThen readCompact readTake

def readVec (read : Reader UInt8 α) : Reader UInt8 (List α) :=
  andThen readCompact (readTimes read)

/-- A value is written, and what is written of it is read back. -/
def Codes (write : α → Except Panic (List UInt8)) (read : Reader UInt8 α) (x : α) : Prop :=
  ∃ written, write x = .ok written ∧ Reads read written x

theorem encodeLength_of_lt {length : ℕ} (h : length < 2 ^ 32) :
    encodeLength length = .ok (compact length) := if_pos h

theorem codes_bytes {bytes : List UInt8} (h : bytes.length < 2 ^ 32) :
    Codes encodeBytes readBytes bytes := by
  refine ⟨compact bytes.length ++ bytes, ?_, (reads_compact h).andThen (reads_readTake bytes)⟩
  rw [encodeBytes, encodeLength_of_lt h, ok_bind]

theorem codes_vec {write : α → Except Panic (List UInt8)} {read : Reader UInt8 α} {xs : List α}
    (hlength : xs.length < 2 ^ 32) (h : ∀ x ∈ xs, Codes write read x) :
    Codes (encodeVec write) (readVec read) xs := by
  obtain ⟨items, hitems, hreads⟩ := exists_mapM_eq_ok h
  refine ⟨compact xs.length ++ items.flatten, ?_, ?_⟩
  · rw [encodeVec, encodeLength_of_lt hlength, ok_bind, hitems, ok_bind]
  · exact (reads_compact hlength).andThen (reads_readTimes_flatten hreads)

/-! ## Codecs -/

/-- A type whose values are written, with the law that what is written is read back. -/
structure Codec (α : Type) where
  encode : α → List UInt8
  decode : Reader UInt8 α
  reads : ∀ x, Reads decode (encode x) x

namespace Codec

variable {β : Type}

/-- The first value of an input, whatever follows it. -/
def decodeFirst (codec : Codec α) (input : List UInt8) : Option α :=
  (codec.decode input).map (·.1)

@[simp]
theorem decodeFirst_encode (codec : Codec α) (x : α) :
    codec.decodeFirst (codec.encode x) = some x := by
  have hread := codec.reads x []
  rw [List.append_nil] at hread
  rw [decodeFirst, hread]
  rfl

def prod (first : Codec α) (second : Codec β) : Codec (α × β) where
  encode x := first.encode x.1 ++ second.encode x.2
  decode := readPair first.decode second.decode
  reads x := (first.reads x.1).pair (second.reads x.2)

/-- A byte says whether a value follows. -/
def readOption (read : Reader UInt8 α) : Reader UInt8 (Option α)
  | 0 :: rest => some (none, rest)
  | 1 :: rest => andThen read (fun x => done (some x)) rest
  | _ => none

def option (codec : Codec α) : Codec (Option α) where
  encode
    | none => [0]
    | some x => 1 :: codec.encode x
  decode := readOption codec.decode
  reads
    | none => fun _ => rfl
    | some x => (codec.reads x).map some

end Codec

end PartnerChains.Scale
