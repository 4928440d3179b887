import PartnerChains.Algorithm.Domain

/-!
# Plutus data and the datums read from the main chain

Indexing a Plutus list out of range panics, as it does in the serialization library.
-/

namespace PartnerChains

inductive PlutusData where
  | constr (alternative : ℕ) (fields : List PlutusData)
  | map (entries : List (PlutusData × PlutusData))
  | list (elements : List PlutusData)
  | integer (value : ℤ)
  | bytes (value : ByteString)

namespace PlutusData

/-! ## Equality -/

mutual

def decEq : (a b : PlutusData) → Decidable (a = b)
  | .constr i xs, .constr j ys =>
      match (inferInstance : Decidable (i = j)), decEqList xs ys with
      | isTrue h, isTrue h' => isTrue (by rw [h, h'])
      | isFalse h, _ => isFalse (by simp [h])
      | _, isFalse h => isFalse (by simp [h])
  | .map xs, .map ys =>
      match decEqEntries xs ys with
      | isTrue h => isTrue (by rw [h])
      | isFalse h => isFalse (by simp [h])
  | .list xs, .list ys =>
      match decEqList xs ys with
      | isTrue h => isTrue (by rw [h])
      | isFalse h => isFalse (by simp [h])
  | .integer i, .integer j =>
      if h : i = j then isTrue (by rw [h]) else isFalse (by simp [h])
  | .bytes x, .bytes y =>
      if h : x = y then isTrue (by rw [h]) else isFalse (by simp [h])
  | .constr .., .map _ | .constr .., .list _ | .constr .., .integer _ | .constr .., .bytes _
  | .map _, .constr .. | .map _, .list _ | .map _, .integer _ | .map _, .bytes _
  | .list _, .constr .. | .list _, .map _ | .list _, .integer _ | .list _, .bytes _
  | .integer _, .constr .. | .integer _, .map _ | .integer _, .list _ | .integer _, .bytes _
  | .bytes _, .constr .. | .bytes _, .map _ | .bytes _, .list _ | .bytes _, .integer _ =>
      isFalse (by simp)

def decEqList : (xs ys : List PlutusData) → Decidable (xs = ys)
  | [], [] => isTrue rfl
  | [], _ :: _ | _ :: _, [] => isFalse (by simp)
  | x :: xs, y :: ys =>
      match decEq x y, decEqList xs ys with
      | isTrue h, isTrue h' => isTrue (by rw [h, h'])
      | isFalse h, _ => isFalse (by simp [h])
      | _, isFalse h => isFalse (by simp [h])

def decEqEntries : (xs ys : List (PlutusData × PlutusData)) → Decidable (xs = ys)
  | [], [] => isTrue rfl
  | [], _ :: _ | _ :: _, [] => isFalse (by simp)
  | (k, v) :: xs, (k', v') :: ys =>
      match decEq k k', decEq v v', decEqEntries xs ys with
      | isTrue h, isTrue h', isTrue h'' => isTrue (by rw [h, h', h''])
      | isFalse h, _, _ => isFalse (by simp [h])
      | _, isFalse h, _ => isFalse (by simp [h])
      | _, _, isFalse h => isFalse (by simp [h])

end

instance : DecidableEq PlutusData := decEq

/-! ## Readers -/

def asList : PlutusData → Option (List PlutusData)
  | .list elements => some elements
  | _ => none

def asBytes : PlutusData → Option ByteString
  | .bytes value => some value
  | _ => none

def asInteger : PlutusData → Option ℤ
  | .integer value => some value
  | _ => none

def asConstrPlutusData : PlutusData → Option (ℕ × List PlutusData)
  | .constr alternative fields => some (alternative, fields)
  | _ => none

def asU64 (data : PlutusData) : Option ℕ :=
  match data.asInteger with
  | none => none
  | some value => if 0 ≤ value ∧ value < 2 ^ 64 then some value.toNat else none

def get (elements : List PlutusData) (index : ℕ) : Except Panic PlutusData :=
  match elements[index]? with
  | some element => .ok element
  | none =>
      let len := elements.length
      .error ⟨s!"index out of bounds: the len is {len} but the index is {index}"⟩

end PlutusData

structure DataDecodingError where
  datum : PlutusData
  target : String
  msg : String
  deriving DecidableEq

/-! ## Versioned datums -/

structure VersionedGenericDatum where
  datum : PlutusData
  appendix : PlutusData
  version : ℕ

/-- The three fields are read from a list of three elements, so no index is out of range. -/
def plutusDataVersionAndPayload (data : PlutusData) : Option VersionedGenericDatum :=
  match data.asList with
  | some [datum, appendix, version] =>
      version.asU64.map fun version => { datum, appendix, version }
  | _ => none

/-! ## Governed map entries -/

structure GovernedMapDatum where
  key : String
  value : ByteString
  deriving DecidableEq

namespace GovernedMapDatum

def stringFromUtf8 (bytes : ByteString) : Option String :=
  String.fromUTF8? ⟨bytes.toArray⟩

theorem stringFromUtf8_toUTF8 (text : String) :
    stringFromUtf8 text.toUTF8.data.toList = some text := by
  rw [stringFromUtf8, Array.toArray_toList]
  exact dif_pos text.isValidUTF8

/-- The second element is looked at only when the first one is a key. -/
def tryFrom (datum : PlutusData) :
    Except Panic (Except DataDecodingError GovernedMapDatum) :=
  let error : Except Panic (Except DataDecodingError GovernedMapDatum) :=
    .ok (.error ⟨datum, "GovernedMapDatum", "Expected List([UTF8String, Bytes])"⟩)
  match datum.asList with
  | none => error
  | some list => do
      match (← PlutusData.get list 0).asBytes.bind stringFromUtf8 with
      | none => error
      | some key =>
          match (← PlutusData.get list 1).asBytes with
          | none => error
          | some value => .ok (.ok ⟨key, value⟩)

end GovernedMapDatum

/-! ## Token transfers -/

inductive TokenTransferDatum where
  | userTransfer (receiver : ByteString)
  | reserveTransfer
  deriving DecidableEq

namespace TokenTransferDatum

def decodeV1 (appendix : PlutusData) : Option TokenTransferDatum :=
  match appendix.asConstrPlutusData with
  | some (0, [receiver]) => receiver.asBytes.map .userTransfer
  | some (1, []) => some .reserveTransfer
  | _ => none

def decode (data : PlutusData) : Except DataDecodingError TokenTransferDatum :=
  match plutusDataVersionAndPayload data with
  | none => .error ⟨data, "TokenTransferDatum", "unversioned datum"⟩
  | some versioned =>
      if versioned.version = 1 then
        match decodeV1 versioned.appendix with
        | some datum => .ok datum
        | none => .error ⟨versioned.appendix, "TokenTransferDatum", "malformed appendix"⟩
      else .error ⟨data, "TokenTransferDatum", "invalid version"⟩

end TokenTransferDatum

end PartnerChains
