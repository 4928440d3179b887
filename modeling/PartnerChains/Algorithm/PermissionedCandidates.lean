import PartnerChains.Algorithm.AuthoritySelection
import PartnerChains.Algorithm.PlutusData

/-!
# The datum of the permissioned candidates

Version 0 has the bytes of an Aura and a Grandpa key by their position. Version 1 names each
key by its identifier.
-/

namespace PartnerChains

def VersionedGenericDatum.toPlutusData (value : VersionedGenericDatum) : PlutusData :=
  .list [value.datum, value.appendix, .integer value.version]

namespace PermissionedCandidates

open AuthoritySelection

/-! ## Keys -/

def find (keys : CandidateKeys) (id : KeyTypeId) : Option ByteString :=
  keys.findSome? fun key => if key.id = id then some key.bytes else none

def findOrEmpty (keys : CandidateKeys) (id : KeyTypeId) : ByteString := (find keys id).getD []

def hasOnlyAuraAndGrandpaKeys (keys : CandidateKeys) : Bool :=
  keys.length = 2 && (find keys auraKeyTypeId).isSome && (find keys grandpaKeyTypeId).isSome

def candidateKeyToPlutus (key : CandidateKey) : PlutusData :=
  .list [.bytes key.id.val, .bytes key.bytes]

def candidateKeysToPlutus (keys : CandidateKeys) : PlutusData :=
  .list (keys.map candidateKeyToPlutus)

def decodeCandidateKey (data : PlutusData) : Option CandidateKey :=
  match data.asList with
  | some [keyId, keyBytes] => do
      let keyId ← keyId.asBytes
      let keyId ← Bytes.tryFrom 4 keyId
      let keyBytes ← keyBytes.asBytes
      some ⟨keyId, keyBytes⟩
  | _ => none

def decodeCandidateKeys (data : PlutusData) : Option CandidateKeys := do
  let outerList ← data.asList
  outerList.mapM decodeCandidateKey

/-! ## Encoding -/

/-- The keys are written in the order of the list, without their identifiers. -/
def candidateDatumV0 (candidate : PermissionedCandidateData) : PlutusData :=
  .list (.bytes candidate.sidechainPublicKey ::
    candidate.keys.map fun key => .bytes key.bytes)

def candidatesToPlutusDataV0 (candidates : List PermissionedCandidateData) : PlutusData :=
  VersionedGenericDatum.toPlutusData
    { datum := .constr 0 [], appendix := .list (candidates.map candidateDatumV0), version := 0 }

def candidateDatumV1 (candidate : PermissionedCandidateData) : PlutusData :=
  .list [.bytes candidate.sidechainPublicKey, candidateKeysToPlutus candidate.keys]

def candidatesToPlutusDataV1 (candidates : List PermissionedCandidateData) : PlutusData :=
  VersionedGenericDatum.toPlutusData
    { datum := .constr 0 [], appendix := .list (candidates.map candidateDatumV1), version := 1 }

def permissionedCandidatesToPlutusData (candidates : List PermissionedCandidateData) :
    PlutusData :=
  if candidates.all fun candidate => hasOnlyAuraAndGrandpaKeys candidate.keys then
    candidatesToPlutusDataV0 candidates
  else candidatesToPlutusDataV1 candidates

/-! ## Decoding -/

structure PermissionedCandidateDatumV0 where
  sidechainPublicKey : SidechainPublicKey
  auraPublicKey : ByteString
  grandpaPublicKey : ByteString
  deriving DecidableEq

structure PermissionedCandidateDatumV1 where
  partnerChainsKey : SidechainPublicKey
  keys : CandidateKeys
  deriving DecidableEq

inductive PermissionedCandidateDatums where
  | v0 (candidates : List PermissionedCandidateDatumV0)
  | v1 (candidates : List PermissionedCandidateDatumV1)
  deriving DecidableEq

def decodeLegacyCandidateDatum (datum : PlutusData) : Option PermissionedCandidateDatumV0 :=
  match datum.asList with
  | some [sc, aura, grandpa] => do
      let sc ← sc.asBytes
      let aura ← aura.asBytes
      let grandpa ← grandpa.asBytes
      some ⟨sc, aura, grandpa⟩
  | _ => none

def decodeV1CandidateDatum (datum : PlutusData) : Option PermissionedCandidateDatumV1 :=
  match datum.asList with
  | some [partnerChainsKey, keys] => do
      let partnerChainsKey ← partnerChainsKey.asBytes
      let keys ← decodeCandidateKeys keys
      some ⟨partnerChainsKey, keys⟩
  | _ => none

namespace PermissionedCandidateDatums

def decodeV1Appendix (data : PlutusData) : Except String PermissionedCandidateDatums :=
  match data.asList.bind (·.mapM decodeV1CandidateDatum) with
  | some candidates => .ok (.v1 candidates)
  | none => .error "Expected [[ByteString, ByteString], [[ByteString, ByteString], ... ]]"

def decodeLegacy (data : PlutusData) : Except String PermissionedCandidateDatums :=
  match data.asList.bind (·.mapM decodeLegacyCandidateDatum) with
  | some candidates => .ok (.v0 candidates)
  | none => .error "Expected [[ByteString, ByteString, ByteString]]"

def decodeVersioned (version : ℕ) (appendix : PlutusData) :
    Except String PermissionedCandidateDatums :=
  match version with
  | 0 => (decodeLegacy appendix).mapError fun msg => s!"Cannot parse appendix: {msg}"
  | 1 => (decodeV1Appendix appendix).mapError fun msg => s!"Cannot parse appendix: {msg}"
  | _ => .error s!"Unknown version: {version}"

def decode (data : PlutusData) : Except DataDecodingError PermissionedCandidateDatums :=
  (match plutusDataVersionAndPayload data with
    | none => decodeLegacy data
    | some versioned => decodeVersioned versioned.version versioned.appendix).mapError
    fun msg => ⟨data, "PermissionedCandidateDatums", msg⟩

/-- The candidates of the datum. Keys of version 0 get their identifiers by position. -/
def toCandidates : PermissionedCandidateDatums → List PermissionedCandidateData
  | .v0 candidates => candidates.map fun candidate =>
      ⟨candidate.sidechainPublicKey, [⟨auraKeyTypeId, candidate.auraPublicKey⟩,
        ⟨grandpaKeyTypeId, candidate.grandpaPublicKey⟩]⟩
  | .v1 candidates => candidates.map fun candidate =>
      ⟨candidate.partnerChainsKey, candidate.keys⟩

end PermissionedCandidateDatums

end PermissionedCandidates

end PartnerChains
