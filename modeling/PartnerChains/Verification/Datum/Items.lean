import PartnerChains.Library.Reading
import PartnerChains.Algorithm.AuthoritySelection

/-!
# Data items of encoded datums

A reader of CBOR data items that follows RFC 8949, and the conventions that Plutus has for tags.
It takes every datum off the front of its encoding. What an item means depends on how the bytes of a
negative bignum are understood.
-/

namespace PartnerChains

open Reading

/-! ## Numbers in big-endian bytes -/

def natOfBytes (bytes : ByteString) : ℕ :=
  bytes.foldl (fun value byte => value * 256 + byte.toNat) 0

theorem foldl_ofNatBigEndian (n value initial : ℕ) :
    (Bytes.ofNatBigEndian n value).val.foldl
        (fun value byte => value * 256 + byte.toNat) initial =
      initial * 256 ^ n + value % 256 ^ n := by
  induction n generalizing initial with
  | zero => simp [Bytes.ofNatBigEndian, Nat.mod_one]
  | succ n ih =>
      have hsplit : (Bytes.ofNatBigEndian (n + 1) value).val =
          UInt8.ofNat (value / 256 ^ n) :: (Bytes.ofNatBigEndian n value).val := by
        simp [Bytes.ofNatBigEndian, List.range_succ]
      have hmod := Nat.mod_pow_succ (b := 256) (k := n) (x := value)
      have hbyte : (UInt8.ofNat (value / 256 ^ n)).toNat = value / 256 ^ n % 256 :=
        UInt8.toNat_ofNat'
      rw [hsplit, List.foldl_cons, ih, hmod, hbyte]
      ring

theorem natOfBytes_ofNatBigEndian {n value : ℕ} (h : value < 256 ^ n) :
    natOfBytes (Bytes.ofNatBigEndian n value).val = value := by
  rw [natOfBytes, foldl_ofNatBigEndian, Nat.mod_eq_of_lt h]
  omega

theorem natOfBytes_magnitudeBytes (value : ℤ) :
    natOfBytes (Datum.magnitudeBytes value) = value.natAbs := by
  have hdigits : ∀ digits : List ℕ, (∀ digit ∈ digits, digit < 256) →
      digits.foldr (fun digit value => value * 256 + (UInt8.ofNat digit).toNat) 0 =
        Nat.ofDigits 256 digits := by
    intro digits hlt
    induction digits with
    | nil => rfl
    | cons digit digits ih =>
        have hdigit : digit % 2 ^ 8 = digit := Nat.mod_eq_of_lt (hlt digit List.mem_cons_self)
        rw [List.foldr_cons, ih fun d hd => hlt d (List.mem_cons_of_mem digit hd),
          Nat.ofDigits_cons, UInt8.toNat_ofNat', hdigit]
        omega
  rw [natOfBytes, Datum.magnitudeBytes, List.foldl_map, List.foldl_reverse,
    hdigits _ fun digit hdigit => Nat.digits_lt_base (by norm_num) hdigit, Nat.ofDigits_digits]

namespace Datum

/-! ## Heads -/

def readNat (length : ℕ) : Reader UInt8 ℕ :=
  andThen (readTake length) fun bytes => done (natOfBytes bytes)

/-- The argument of a head, which is missing for an indefinite length. -/
def readArgument (info : ℕ) : Reader UInt8 (Option ℕ) :=
  if info ≤ 0x17 then done (some info)
  else if info = 24 then andThen (readNat 1) fun value => done (some value)
  else if info = 25 then andThen (readNat 2) fun value => done (some value)
  else if info = 26 then andThen (readNat 4) fun value => done (some value)
  else if info = 27 then andThen (readNat 8) fun value => done (some value)
  else if info = 31 then done none
  else fail

/-- The major type of a head and its argument. -/
def readHead : Reader UInt8 (ℕ × Option ℕ)
  | [] => none
  | byte :: rest => andThen (readArgument (byte.toNat % 32))
      (fun argument => done (byte.toNat / 32, argument)) rest

theorem reads_readNat {length value : ℕ} (h : value < 256 ^ length) :
    Reads (readNat length) (Bytes.ofNatBigEndian length value).val value := by
  have hread := (reads_readTake (Bytes.ofNatBigEndian length value).val).map natOfBytes
  rw [natOfBytes_ofNatBigEndian h, (Bytes.ofNatBigEndian length value).property] at hread
  exact hread

/-- The first byte of a head is the major type times 32 plus what says how long it is. -/
theorem reads_head (major : UInt8) (index info : ℕ) {bytes : ByteString} {argument : Option ℕ}
    (hmajor : major.toNat = 32 * index) (hindex : index < 8) (hinfo : info < 32)
    (h : Reads (readArgument info) bytes argument) :
    Reads readHead ((major + UInt8.ofNat info) :: bytes) (index, argument) := by
  have hsum : (major + UInt8.ofNat info).toNat = 32 * index + info := by
    rw [UInt8.toNat_add, UInt8.toNat_ofNat', hmajor]
    omega
  have hdiv : (major + UInt8.ofNat info).toNat / 32 = index := by omega
  have hmod : (major + UInt8.ofNat info).toNat % 32 = info := by omega
  intro rest
  rw [List.cons_append, readHead, hdiv, hmod]
  exact h.map (fun argument => (index, argument)) rest

/-- The reader of heads inverts every head with an argument of 64 bits. -/
theorem reads_typeLen (major : UInt8) (index : ℕ) {argument : ℕ}
    (hmajor : major.toNat = 32 * index) (hindex : index < 8) (hargument : argument < 2 ^ 64) :
    Reads readHead (Cbor.typeLen major argument) (index, some argument) := by
  unfold Cbor.typeLen
  split_ifs with h17 hff hffff hffffffff
  · apply reads_head major index argument hmajor hindex (by omega)
    rw [readArgument, if_pos h17]
    exact reads_done (some argument)
  · apply reads_head major index 24 hmajor hindex (by omega)
    exact (reads_readNat (show argument < 256 ^ 1 by omega)).map some
  · apply reads_head major index 25 hmajor hindex (by omega)
    exact (reads_readNat (show argument < 256 ^ 2 by omega)).map some
  · apply reads_head major index 26 hmajor hindex (by omega)
    exact (reads_readNat (show argument < 256 ^ 4 by omega)).map some
  · apply reads_head major index 27 hmajor hindex (by omega)
    exact (reads_readNat (show argument < 256 ^ 8 by omega)).map some

theorem reads_beginBytes : Reads readHead Cbor.beginBytes (2, none) :=
  reads_head 0x40 2 31 rfl (by omega) (by omega) (reads_done none)

theorem reads_beginArray : Reads readHead Cbor.beginArray (4, none) :=
  reads_head 0x80 4 31 rfl (by omega) (by omega) (reads_done none)

/-! ## Byte strings -/

def readChunk : Reader UInt8 ByteString :=
  andThen readHead fun head =>
    match head with
    | (2, some length) => readTake length
    | _ => fail

/-- The bytes behind the head of a byte string. -/
def readBytes : Option ℕ → Reader UInt8 ByteString
  | some length => readTake length
  | none => andThen (readUntil 0xff readChunk) fun chunks => done chunks.flatten

theorem flatten_chunks {size : ℕ} (hsize : 0 < size) (bytes : ByteString) :
    (chunks size bytes).flatten = bytes := by
  have htake : ∀ n, ((List.range n).map fun i => (bytes.drop (i * size)).take size).flatten =
      bytes.take (n * size) := by
    intro n
    induction n with
    | zero => simp
    | succ n ih => simp [List.range_succ, ih, Nat.succ_mul, List.take_add]
  rw [chunks, htake]
  apply List.take_of_length_le
  have hdiv := Nat.lt_div_mul_add hsize (a := bytes.length + size - 1)
  omega

theorem length_le_of_mem_chunks {size : ℕ} {bytes chunk : ByteString}
    (h : chunk ∈ chunks size bytes) : chunk.length ≤ size := by
  obtain ⟨i, _, rfl⟩ := List.mem_map.mp h
  exact List.length_take_le _ _

theorem reads_chunk {bytes : ByteString} (h : bytes.length < 2 ^ 64) :
    Reads readChunk (Cbor.bytes bytes) bytes :=
  (reads_typeLen 0x40 2 rfl (by omega) h).andThen (reads_readTake bytes)

/-- What follows the head of a byte string of either form. -/
theorem exists_head_encodeBytestring (bytes : ByteString) :
    ∃ head body length, encodeBytestring bytes = head ++ body ∧
      Reads readHead head (2, length) ∧ Reads (readBytes length) body bytes := by
  by_cases h : bytes.length ≤ bytesChunkSizeLimit
  · have hlength : bytes.length < 2 ^ 64 := by
      unfold bytesChunkSizeLimit at h
      omega
    exact ⟨Cbor.typeLen 0x40 bytes.length, bytes, some bytes.length,
      by rw [encodeBytestring, if_pos h, Cbor.bytes],
      reads_typeLen 0x40 2 rfl (by omega) hlength, reads_readTake bytes⟩
  · refine ⟨Cbor.beginBytes,
      (chunks bytesChunkSizeLimit bytes).flatMap Cbor.bytes ++ Cbor.endIndefinite, none,
      by rw [encodeBytestring, if_neg h, List.append_assoc, List.flatMap_def],
      reads_beginBytes, ?_⟩
    have hchunks : Reads (readUntil 0xff readChunk)
        ((chunks bytesChunkSizeLimit bytes).flatMap Cbor.bytes ++ Cbor.endIndefinite)
        (chunks bytesChunkSizeLimit bytes) := by
      apply reads_readUntil
      · intro rest
        rfl
      · intro chunk hchunk
        have hlength := length_le_of_mem_chunks hchunk
        apply reads_chunk
        unfold bytesChunkSizeLimit at hlength
        omega
    have hread := hchunks.map List.flatten
    rw [flatten_chunks (by decide)] at hread
    exact hread

/-- The number of entries of every map in the datum has 64 bits, as the length of a vector
has. -/
inductive Addressable : Datum → Prop
  | integerDatum (value : ℤ) : Addressable (.integerDatum value)
  | byteStringDatum (bytes : ByteString) : Addressable (.byteStringDatum bytes)
  | constructorDatum (constructor : UInt64) (fields : List Datum)
      (h : ∀ field ∈ fields, Addressable field) :
      Addressable (.constructorDatum constructor fields)
  | listDatum (items : List Datum) (h : ∀ item ∈ items, Addressable item) :
      Addressable (.listDatum items)
  | mapDatum (entries : List (Datum × Datum)) (hlength : entries.length < 2 ^ 64)
      (hkey : ∀ entry ∈ entries, Addressable entry.1)
      (hvalue : ∀ entry ∈ entries, Addressable entry.2) : Addressable (.mapDatum entries)

theorem encodeItems_eq_flatMap (items : List Datum) :
    encodeItems items = items.flatMap encodeDatum := by
  induction items with
  | nil => rfl
  | cons item items ih => rw [encodeItems, ih, List.flatMap_cons]

theorem encodeEntries_eq_flatMap (entries : List (Datum × Datum)) :
    encodeEntries entries =
      entries.flatMap fun entry => encodeDatum entry.1 ++ encodeDatum entry.2 := by
  induction entries with
  | nil => rfl
  | cons entry entries ih => rw [encodeEntries, ih, List.flatMap_cons]

end Datum

namespace Cbor

/-! ## Data items -/

inductive Item where
  | unsigned (value : ℕ)
  /-- The number is one below the negated argument. -/
  | negative (argument : ℕ)
  | byteString (bytes : ByteString)
  | array (items : List Item)
  | map (entries : List (Item × Item))
  | tag (number : ℕ) (content : Item)

/-- What follows the head of an array or a map. -/
def readSequence {α : Type} (read : Reader UInt8 α) : Option ℕ → Reader UInt8 (List α)
  | some length => readTimes read length
  | none => readUntil 0xff read

/-- Data items of at most the given depth. Text, simple values and floating-point numbers, which
are not part of Plutus data, are not read. -/
def readItem : ℕ → Reader UInt8 Item
  | 0 => fail
  | depth + 1 => andThen Datum.readHead fun head =>
      match head with
      | (0, some value) => done (.unsigned value)
      | (1, some argument) => done (.negative argument)
      | (2, length) => andThen (Datum.readBytes length) fun bytes => done (.byteString bytes)
      | (4, length) => andThen (readSequence (readItem depth) length) fun items =>
          done (.array items)
      | (5, length) =>
          andThen (readSequence (readPair (readItem depth) (readItem depth)) length) fun entries =>
            done (.map entries)
      | (6, some number) => andThen (readItem depth) fun content => done (.tag number content)
      | _ => fail

/-! ## Plutus data -/

/-- What a tag makes of its content, where the bytes of a negative bignum stand for the given
number. -/
def tagged (negative : ℕ → ℤ) (number : ℕ) : Datum → Option Datum
  | .byteStringDatum bytes =>
      if number = 2 then some (.integerDatum (natOfBytes bytes))
      else if number = 3 then some (.integerDatum (negative (natOfBytes bytes)))
      else none
  | .listDatum fields =>
      if 121 ≤ number ∧ number ≤ 127 then
        some (.constructorDatum (.ofNat (number - 121)) fields)
      else if 1280 ≤ number ∧ number ≤ 1400 then
        some (.constructorDatum (.ofNat (number - 1280 + 7)) fields)
      else if number = 102 then
        match fields with
        | [.integerDatum constructor, .listDatum fields] =>
            if 0 ≤ constructor ∧ constructor < 2 ^ 64 then
              some (.constructorDatum (.ofNat constructor.toNat) fields)
            else none
        | _ => none
      else none
  | _ => none

mutual

def Item.toDatumBy (negative : ℕ → ℤ) : Item → Option Datum
  | .unsigned value => some (.integerDatum value)
  | .negative argument => some (.integerDatum (-1 - argument))
  | .byteString bytes => some (.byteStringDatum bytes)
  | .array items => (Item.toDatumsBy negative items).map .listDatum
  | .map entries => (Item.toEntriesBy negative entries).map .mapDatum
  | .tag number content => (content.toDatumBy negative).bind (tagged negative number)

def Item.toDatumsBy (negative : ℕ → ℤ) : List Item → Option (List Datum)
  | [] => some []
  | item :: items => do
      let datum ← item.toDatumBy negative
      let datums ← Item.toDatumsBy negative items
      some (datum :: datums)

def Item.toEntriesBy (negative : ℕ → ℤ) : List (Item × Item) → Option (List (Datum × Datum))
  | [] => some []
  | (key, value) :: entries => do
      let key ← key.toDatumBy negative
      let value ← value.toDatumBy negative
      let entries ← Item.toEntriesBy negative entries
      some ((key, value) :: entries)

end

end Cbor

namespace Datum

open Cbor

/-! ## Integers of a datum -/

inductive EachInteger (p : ℤ → Prop) : Datum → Prop
  | integerDatum (value : ℤ) (h : p value) : EachInteger p (.integerDatum value)
  | byteStringDatum (bytes : ByteString) : EachInteger p (.byteStringDatum bytes)
  | constructorDatum (constructor : UInt64) (fields : List Datum)
      (h : ∀ field ∈ fields, EachInteger p field) :
      EachInteger p (.constructorDatum constructor fields)
  | listDatum (items : List Datum) (h : ∀ item ∈ items, EachInteger p item) :
      EachInteger p (.listDatum items)
  | mapDatum (entries : List (Datum × Datum)) (hkey : ∀ entry ∈ entries, EachInteger p entry.1)
      (hvalue : ∀ entry ∈ entries, EachInteger p entry.2) : EachInteger p (.mapDatum entries)

theorem Addressable.eachInteger {p : ℤ → Prop} (hp : ∀ value, p value) {datum : Datum}
    (h : Addressable datum) : EachInteger p datum := by
  induction h with
  | integerDatum value => exact .integerDatum value (hp value)
  | byteStringDatum bytes => exact .byteStringDatum bytes
  | constructorDatum constructor fields _ ih => exact .constructorDatum constructor fields ih
  | listDatum items _ ih => exact .listDatum items ih
  | mapDatum entries _ _ _ ihKey ihValue => exact .mapDatum entries ihKey ihValue

variable {negative : ℕ → ℤ}

/-- A number of 64 bits is not written as a bignum, and the encoder writes the magnitude of a
bignum. -/
def Meant (negative : ℕ → ℤ) : Datum → Prop :=
  EachInteger fun value => -2 ^ 63 ≤ value ∨ negative value.natAbs = value

/-- An item is read from the encoding, and it means the datum exactly when its integers are meant
by what is written for them. -/
def ReadAs (negative : ℕ → ℤ) (depth : ℕ) (datum : Datum) : Prop :=
  ∃ item, Reads (readItem depth) (encodeDatum datum) item ∧
    (item.toDatumBy negative = some datum ↔ Meant negative datum)

/-! ## Sequences -/

variable {depth : ℕ}

theorem exists_items {datums : List Datum} (h : ∀ datum ∈ datums, ReadAs negative depth datum) :
    ∃ items, List.Forall₂ (fun item text => Reads (readItem depth) text item) items
        (datums.map encodeDatum) ∧
      (Item.toDatumsBy negative items = some datums ↔ ∀ datum ∈ datums, Meant negative datum) := by
  induction datums with
  | nil => exact ⟨[], .nil, by simp [Item.toDatumsBy]⟩
  | cons datum datums ih =>
      obtain ⟨hdatum, hrest⟩ := List.forall_mem_cons.mp h
      obtain ⟨item, hitem, hmeans⟩ := hdatum
      obtain ⟨items, hitems, hall⟩ := ih hrest
      refine ⟨item :: items, .cons hitem hitems, ?_⟩
      rw [List.forall_mem_cons, ← hmeans, ← hall]
      simp [Item.toDatumsBy, Option.bind_eq_some_iff]

variable {entries : List (Datum × Datum)}

theorem exists_entries (hkey : ∀ entry ∈ entries, ReadAs negative depth entry.1)
    (hvalue : ∀ entry ∈ entries, ReadAs negative depth entry.2) :
    ∃ items, List.Forall₂
        (fun item text => Reads (readPair (readItem depth) (readItem depth)) text item) items
        (entries.map fun entry => encodeDatum entry.1 ++ encodeDatum entry.2) ∧
      (Item.toEntriesBy negative items = some entries ↔
        (∀ entry ∈ entries, Meant negative entry.1) ∧
          ∀ entry ∈ entries, Meant negative entry.2) := by
  induction entries with
  | nil => exact ⟨[], .nil, by simp [Item.toEntriesBy]⟩
  | cons entry entries ih =>
      obtain ⟨⟨keyItem, hkeyItem, hkeyMeans⟩, hkeys⟩ := List.forall_mem_cons.mp hkey
      obtain ⟨⟨valueItem, hvalueItem, hvalueMeans⟩, hvalues⟩ := List.forall_mem_cons.mp hvalue
      obtain ⟨items, hitems, hall⟩ := ih hkeys hvalues
      refine ⟨(keyItem, valueItem) :: items, .cons (hkeyItem.pair hvalueItem) hitems, ?_⟩
      rw [List.forall_mem_cons, List.forall_mem_cons, ← hkeyMeans, ← hvalueMeans, and_and_and_comm,
        ← hall]
      obtain ⟨key, value⟩ := entry
      simp [Item.toEntriesBy, Option.bind_eq_some_iff, and_assoc]

theorem readItem_endIndefinite (depth : ℕ) (rest : ByteString) :
    readItem depth (0xff :: rest) = none := by
  cases depth <;> rfl

theorem exists_array {datums : List Datum} (h : ∀ datum ∈ datums, ReadAs negative depth datum) :
    ∃ items, Reads (readItem (depth + 1)) (encodeLinearSeq datums) (.array items) ∧
      (Item.toDatumsBy negative items = some datums ↔ ∀ datum ∈ datums, Meant negative datum) := by
  obtain ⟨items, hitems, hall⟩ := exists_items h
  refine ⟨items, ?_, hall⟩
  cases datums with
  | nil =>
      cases hitems
      have hread : Reads (readItem (depth + 1)) (Cbor.array 0 ++ []) (.array []) :=
        (reads_typeLen 0x80 4 rfl (by omega) (by omega)).andThen ((reads_done []).map Item.array)
      rw [encodeLinearSeq, ← List.append_nil (Cbor.array 0)]
      exact hread
  | cons datum datums =>
      have hread : Reads (readItem (depth + 1)) (beginArray ++
          (((datum :: datums).map encodeDatum).flatten ++ endIndefinite)) (.array items) :=
        reads_beginArray.andThen
          ((reads_readUntil_flatten (readItem_endIndefinite depth) hitems).map Item.array)
      rw [encodeLinearSeq, encodeItems_eq_flatMap, List.append_assoc]
      rw [List.map_cons, List.flatten_cons, ← List.flatMap_def] at hread
      exact hread

/-! ## Datums -/

theorem length_typeLen_pos (major : UInt8) (argument : ℕ) :
    0 < (typeLen major argument).length := by
  unfold typeLen
  split_ifs <;> simp

theorem length_encodeBytestring_pos (bytes : ByteString) :
    0 < (encodeBytestring bytes).length := by
  unfold encodeBytestring Cbor.bytes beginBytes
  split_ifs
  · have hhead := length_typeLen_pos 0x40 bytes.length
    simp only [List.length_append]
    omega
  · simp

theorem reads_byteString (depth : ℕ) (bytes : ByteString) :
    Reads (readItem (depth + 1)) (encodeBytestring bytes) (.byteString bytes) := by
  obtain ⟨head, body, length, hencode, hhead, hbody⟩ := exists_head_encodeBytestring bytes
  rw [hencode]
  exact hhead.andThen (hbody.map Item.byteString)

/-- A number that has 64 bits is its own argument, or is one below the negated one. -/
theorem exists_item_i64 (depth : ℕ) {value : ℤ} (h : -2 ^ 63 ≤ value ∧ value < 2 ^ 63) :
    ∃ item, Reads (readItem (depth + 1)) (Cbor.i64 value) item ∧
      item.toDatumBy negative = some (integerDatum value) := by
  unfold Cbor.i64
  split_ifs with hsign
  · refine ⟨.unsigned value.toNat, ?_, by rw [Item.toDatumBy, Int.toNat_of_nonneg hsign]⟩
    have hread : Reads (readItem (depth + 1)) (Cbor.u64 value.toNat ++ [])
        (.unsigned value.toNat) :=
      (reads_typeLen 0x00 0 rfl (by omega) (by omega)).andThen (reads_done _)
    rwa [List.append_nil] at hread
  · have hvalue : -1 - ((-1 - value).toNat : ℤ) = value := by omega
    refine ⟨.negative (-1 - value).toNat, ?_, by rw [Item.toDatumBy, hvalue]⟩
    have hread : Reads (readItem (depth + 1)) (typeLen 0x20 (-1 - value).toNat ++ [])
        (.negative (-1 - value).toNat) :=
      (reads_typeLen 0x20 1 rfl (by omega) (by omega)).andThen (reads_done _)
    rwa [List.append_nil] at hread

theorem reads_tag {depth number : ℕ} {text : ByteString} {content : Item}
    (hnumber : number < 2 ^ 64) (h : Reads (readItem depth) text content) :
    Reads (readItem (depth + 1)) (Cbor.tag number ++ text) (.tag number content) :=
  (reads_typeLen 0xc0 6 rfl (by omega) hnumber).andThen (h.map (Item.tag number))

theorem readAs_integer {value : ℤ} (h : (encodeInteger value).length ≤ depth) :
    ReadAs negative depth (integerDatum value) := by
  have hiff : Meant negative (integerDatum value) ↔
      -2 ^ 63 ≤ value ∨ negative value.natAbs = value :=
    ⟨fun h => by cases h; assumption, fun h => .integerDatum value h⟩
  rw [ReadAs, encodeDatum, hiff]
  unfold encodeInteger at h ⊢
  split_ifs at h ⊢ with hsmall hpos
  · obtain ⟨depth, rfl⟩ : ∃ k, depth = k + 1 := by
      have hlength : 0 < (Cbor.i64 value).length := by
        unfold Cbor.i64 Cbor.u64
        split_ifs <;> exact length_typeLen_pos _ _
      exact ⟨depth - 1, by omega⟩
    obtain ⟨item, hitem, hmeans⟩ := exists_item_i64 depth hsmall
    exact ⟨item, hitem, iff_of_true hmeans (.inl hsmall.1)⟩
  all_goals
    obtain ⟨depth, rfl⟩ : ∃ k, depth = k + 2 := by
      have hbytes := length_encodeBytestring_pos (magnitudeBytes value)
      rw [List.length_append, Cbor.tag] at h
      have htag := length_typeLen_pos 0xc0 posBignum
      have htag' := length_typeLen_pos 0xc0 negBignum
      exact ⟨depth - 2, by omega⟩
    refine ⟨_, reads_tag (by decide) (reads_byteString depth (magnitudeBytes value)), ?_⟩
  · have hvalue : (value.natAbs : ℤ) = value := by omega
    refine iff_of_true ?_ (.inl (by omega))
    simp [Item.toDatumBy, tagged, posBignum, natOfBytes_magnitudeBytes, hvalue]
  · have hbelow : ¬ -2 ^ 63 ≤ value := by omega
    rw [or_iff_right hbelow]
    simp [Item.toDatumBy, tagged, negBignum, natOfBytes_magnitudeBytes]

theorem meant_constructor_iff {constructor : UInt64} {fields : List Datum} :
    Meant negative (constructorDatum constructor fields) ↔
      ∀ field ∈ fields, Meant negative field :=
  ⟨fun h => by cases h; assumption, .constructorDatum constructor fields⟩

theorem length_field_add_two_le {items : List Datum} {item : Datum} (h : item ∈ items) :
    (encodeDatum item).length + 2 ≤ (encodeLinearSeq items).length := by
  cases items with
  | nil => cases h
  | cons first rest =>
      have hmem := List.length_flatMap (l := first :: rest) (f := encodeDatum)
      have hle : (encodeDatum item).length ≤ ((first :: rest).flatMap encodeDatum).length := by
        rw [hmem]
        exact List.single_le_sum (by simp) _ (List.mem_map_of_mem h)
      rw [List.flatMap_cons, List.length_append] at hle
      rw [encodeLinearSeq, encodeItems_eq_flatMap]
      simp only [beginArray, endIndefinite, List.length_append, List.length_singleton]
      omega

theorem length_encodeLinearSeq_pos (items : List Datum) : 0 < (encodeLinearSeq items).length := by
  cases items with
  | nil => exact length_typeLen_pos 0x80 0
  | cons => simp [encodeLinearSeq, beginArray]

/-! ### Constructors -/

section Constructors

variable {constructor : UInt64} {fields : List Datum} {items : List Item}

theorem toDatum_tag_array {number : ℕ} (h : ∀ fields, tagged negative number (listDatum fields) =
    some (constructorDatum constructor fields)) :
    (Item.tag number (.array items)).toDatumBy negative =
      (Item.toDatumsBy negative items).map (constructorDatum constructor) := by
  rw [Item.toDatumBy, Item.toDatumBy]
  cases Item.toDatumsBy negative items with
  | none => rfl
  | some fields => exact h fields

theorem tagged_smallTag (h : constructor.toNat < 7) (fields : List Datum) :
    tagged negative (constructorSmallTag constructor.toNat) (listDatum fields) =
      some (constructorDatum constructor fields) := by
  unfold tagged constructorSmallTag
  dsimp only
  rw [if_pos (by omega), Nat.add_sub_cancel, UInt64.ofNat_toNat]

theorem tagged_bigTag (h : ¬ constructor.toNat < 7) (h' : constructor.toNat < 128)
    (fields : List Datum) :
    tagged negative (constructorBigTag constructor.toNat) (listDatum fields) =
      some (constructorDatum constructor fields) := by
  have hnumber : 1280 + constructor.toNat - 7 - 1280 + 7 = constructor.toNat := by omega
  unfold tagged constructorBigTag
  dsimp only
  rw [if_neg (by omega), if_pos (by omega), hnumber, UInt64.ofNat_toNat]

theorem tagged_overLimitTag (fields : List Datum) :
    tagged negative constructorOverLimitTag
        (listDatum [integerDatum constructor.toNat, listDatum fields]) =
      some (constructorDatum constructor fields) := by
  have hconstructor := constructor.toNat_lt
  have hfits : (0 : ℤ) ≤ constructor.toNat ∧ (constructor.toNat : ℤ) < 2 ^ 64 := by omega
  unfold tagged constructorOverLimitTag
  dsimp only
  rw [if_neg (by decide), if_neg (by decide), if_pos rfl, if_pos hfits, Int.toNat_natCast,
    UInt64.ofNat_toNat]

theorem toDatum_overLimit :
    (Item.tag constructorOverLimitTag
        (.array [.unsigned constructor.toNat, .array items])).toDatumBy negative =
      (Item.toDatumsBy negative items).map (constructorDatum constructor) := by
  have hpair : (Item.array [.unsigned constructor.toNat, .array items]).toDatumBy negative =
      (Item.toDatumsBy negative items).map fun fields =>
        listDatum [integerDatum constructor.toNat, listDatum fields] := by
    simp only [Item.toDatumBy, Item.toDatumsBy]
    cases Item.toDatumsBy negative items <;> rfl
  rw [Item.toDatumBy, hpair]
  cases Item.toDatumsBy negative items with
  | none => rfl
  | some fields => rw [Option.map_some, Option.bind_some, tagged_overLimitTag, Option.map_some]

/-- An item that makes a constructor of the fields in it. -/
theorem readAs_constructor_of_item {item : Item}
    (hread : Reads (readItem depth)
      (encodeConstructorTag constructor.toNat ++ encodeLinearSeq fields) item)
    (hitem : item.toDatumBy negative =
      (Item.toDatumsBy negative items).map (constructorDatum constructor))
    (hall : Item.toDatumsBy negative items = some fields ↔ ∀ field ∈ fields, Meant negative field) :
    ReadAs negative depth (constructorDatum constructor fields) := by
  refine ⟨item, by rwa [encodeDatum], ?_⟩
  rw [meant_constructor_iff, ← hall, hitem]
  cases Item.toDatumsBy negative items <;> simp

/-- With a tag of its own, the fields are two items deeper than the constructor. -/
theorem readAs_constructor_compact {depth number : ℕ}
    (hencode : encodeConstructorTag constructor.toNat = Cbor.tag number)
    (hnumber : number < 2 ^ 64)
    (htagged : ∀ fields, tagged negative number (listDatum fields) =
      some (constructorDatum constructor fields))
    (h : ∀ field ∈ fields, ReadAs negative depth field) :
    ReadAs negative (depth + 2) (constructorDatum constructor fields) := by
  obtain ⟨items, hitems, hall⟩ := exists_array h
  refine readAs_constructor_of_item ?_ (toDatum_tag_array htagged) hall
  rw [hencode]
  exact reads_tag hnumber hitems

/-- Where the number of the constructor follows the tag, they are three items deeper. -/
theorem readAs_constructor_overLimit (hlimit : ¬ constructor.toNat < 128)
    (h : ∀ field ∈ fields, ReadAs negative depth field) :
    ReadAs negative (depth + 3) (constructorDatum constructor fields) := by
  obtain ⟨items, hitems, hall⟩ := exists_array h
  refine readAs_constructor_of_item ?_ toDatum_overLimit hall
  have hnumber : Reads (readItem (depth + 1)) (Cbor.u64 constructor.toNat)
      (.unsigned constructor.toNat) := by
    have hread : Reads (readItem (depth + 1)) (Cbor.u64 constructor.toNat ++ [])
        (.unsigned constructor.toNat) :=
      (reads_typeLen 0x00 0 rfl (by omega) constructor.toNat_lt).andThen (reads_done _)
    rwa [List.append_nil] at hread
  have hpair : Reads (readItem (depth + 2))
      (Cbor.array 2 ++ [Cbor.u64 constructor.toNat, encodeLinearSeq fields].flatten)
      (.array [.unsigned constructor.toNat, .array items]) :=
    (reads_typeLen 0x80 4 rfl (by omega) (by decide : 2 < 2 ^ 64)).andThen
      ((reads_readTimes_flatten (.cons hnumber (.cons hitems .nil))).map Item.array)
  have hread := reads_tag (by decide : constructorOverLimitTag < 2 ^ 64) hpair
  rw [encodeConstructorTag, if_neg (by omega), if_neg hlimit]
  simpa [List.append_assoc] using hread

theorem readAs_constructor
    (hlength : (encodeDatum (constructorDatum constructor fields)).length ≤ depth)
    (h : ∀ n < depth, ∀ field ∈ fields, (encodeDatum field).length ≤ n → ReadAs negative n field) :
    ReadAs negative depth (constructorDatum constructor fields) := by
  have hseq := length_encodeLinearSeq_pos fields
  have htag (number : ℕ) : 0 < (Cbor.tag number).length := length_typeLen_pos 0xc0 number
  have hfields (n : ℕ) (hn : n < depth) (hle : (encodeLinearSeq fields).length ≤ n + 2) :
      ∀ field ∈ fields, ReadAs negative n field := by
    intro field hfield
    have hfieldLength := length_field_add_two_le hfield
    exact h n hn field hfield (by omega)
  rw [encodeDatum, List.length_append] at hlength
  by_cases hlimit : constructor.toNat < 128
  · obtain ⟨number, hencode, hnumber, htagged⟩ : ∃ number,
        encodeConstructorTag constructor.toNat = Cbor.tag number ∧ number < 2 ^ 64 ∧
          ∀ fields, tagged negative number (listDatum fields) =
            some (constructorDatum constructor fields) := by
      by_cases hsmall : constructor.toNat < 7
      · exact ⟨_, if_pos hsmall, by unfold constructorSmallTag; omega, tagged_smallTag hsmall⟩
      · refine ⟨_, (if_neg hsmall).trans (if_pos hlimit), ?_, tagged_bigTag hsmall hlimit⟩
        unfold constructorBigTag
        omega
    have hpos := htag number
    rw [hencode] at hlength
    obtain ⟨n, rfl⟩ : ∃ n, depth = n + 2 := ⟨depth - 2, by omega⟩
    exact readAs_constructor_compact hencode hnumber htagged (hfields n (by omega) (by omega))
  · have hhead : 3 ≤ (encodeConstructorTag constructor.toNat).length := by
      have hpos := htag constructorOverLimitTag
      have harray := length_typeLen_pos 0x80 2
      have hnumber := length_typeLen_pos 0x00 constructor.toNat
      rw [encodeConstructorTag, if_neg (by omega), if_neg hlimit, List.length_append,
        List.length_append, Cbor.array, Cbor.u64]
      omega
    obtain ⟨n, rfl⟩ : ∃ n, depth = n + 3 := ⟨depth - 3, by omega⟩
    exact readAs_constructor_overLimit hlimit (hfields n (by omega) (by omega))

end Constructors

/-! ### Lists and maps -/

theorem readAs_list {items : List Datum} (h : ∀ item ∈ items, ReadAs negative depth item) :
    ReadAs negative (depth + 1) (listDatum items) := by
  obtain ⟨read, hread, hall⟩ := exists_array h
  refine ⟨.array read, by rwa [encodeDatum], ?_⟩
  have hiff : Meant negative (listDatum items) ↔ ∀ item ∈ items, Meant negative item :=
    ⟨fun h => by cases h; assumption, .listDatum items⟩
  rw [hiff, ← hall, Item.toDatumBy]
  cases Item.toDatumsBy negative read <;> simp

theorem readAs_map (hlength : entries.length < 2 ^ 64)
    (hkey : ∀ entry ∈ entries, ReadAs negative depth entry.1)
    (hvalue : ∀ entry ∈ entries, ReadAs negative depth entry.2) :
    ReadAs negative (depth + 1) (mapDatum entries) := by
  obtain ⟨read, hread, hall⟩ := exists_entries hkey hvalue
  have hcount : read.length = entries.length := by simpa using hread.length_eq
  refine ⟨.map read, ?_, ?_⟩
  · rw [encodeDatum, encodeEntries_eq_flatMap, List.flatMap_def]
    refine (reads_typeLen 0xa0 5 rfl (by omega) hlength).andThen ?_
    rw [← hcount]
    exact (reads_readTimes_flatten hread).map Item.map
  · have hiff : Meant negative (mapDatum entries) ↔
        (∀ entry ∈ entries, Meant negative entry.1) ∧
          ∀ entry ∈ entries, Meant negative entry.2 :=
      ⟨fun h => by cases h; exact ⟨by assumption, by assumption⟩,
        fun h => .mapDatum entries h.1 h.2⟩
    rw [hiff, ← hall, Item.toDatumBy]
    cases Item.toEntriesBy negative read <;> simp

theorem length_entry_lt {entry : Datum × Datum} (h : entry ∈ entries) :
    (encodeDatum entry.1).length + (encodeDatum entry.2).length <
      (encodeDatum (mapDatum entries)).length := by
  have hhead := length_typeLen_pos 0xa0 entries.length
  have hle : (encodeDatum entry.1 ++ encodeDatum entry.2).length ≤
      (entries.flatMap fun entry => encodeDatum entry.1 ++ encodeDatum entry.2).length := by
    rw [List.length_flatMap]
    exact List.single_le_sum (by simp) _ (List.mem_map.mpr ⟨entry, h, rfl⟩)
  rw [encodeDatum, encodeEntries_eq_flatMap, List.length_append, Cbor.map]
  rw [List.length_append] at hle
  omega

/-- Every datum is read as an item at a depth that is not below the length of its encoding. -/
theorem readAs {datum : Datum} (hdatum : Addressable datum)
    (hdepth : (encodeDatum datum).length ≤ depth) : ReadAs negative depth datum := by
  induction depth using Nat.strong_induction_on generalizing datum with
  | _ depth ih =>
      cases hdatum with
      | integerDatum value => exact readAs_integer (by rwa [encodeDatum] at hdepth)
      | byteStringDatum bytes =>
          have hpos := length_encodeBytestring_pos bytes
          rw [encodeDatum] at hdepth
          obtain ⟨n, rfl⟩ : ∃ n, depth = n + 1 := ⟨depth - 1, by omega⟩
          exact ⟨.byteString bytes, by rw [encodeDatum]; exact reads_byteString n bytes,
            iff_of_true rfl (.byteStringDatum bytes)⟩
      | constructorDatum constructor fields h =>
          exact readAs_constructor hdepth fun n hn field hfield hle =>
            ih n hn (h field hfield) hle
      | listDatum items h =>
          have hpos := length_encodeLinearSeq_pos items
          rw [encodeDatum] at hdepth
          obtain ⟨n, rfl⟩ : ∃ n, depth = n + 1 := ⟨depth - 1, by omega⟩
          refine readAs_list fun item hitem => ih n (by omega) (h item hitem) ?_
          have hlength := length_field_add_two_le hitem
          omega
      | mapDatum entries hlength hkey hvalue =>
          have hpos : 0 < (encodeDatum (mapDatum entries)).length := by
            have hhead := length_typeLen_pos 0xa0 entries.length
            rw [encodeDatum, List.length_append, Cbor.map]
            omega
          obtain ⟨n, rfl⟩ : ∃ n, depth = n + 1 := ⟨depth - 1, by omega⟩
          refine readAs_map hlength (fun entry hentry => ih n (by omega) (hkey entry hentry) ?_)
            fun entry hentry => ih n (by omega) (hvalue entry hentry) ?_
          all_goals
            have hlt := length_entry_lt hentry
            omega

end Datum

end PartnerChains
