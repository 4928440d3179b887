import PartnerChains.Algorithm.PermissionedCandidates
import PartnerChains.Algorithm.ScriptUtxos

/-!
# The datum of a registration

Registrations without a version are a constructor with seven fields. Version 0 has the same
fields, with the key hash of the owner in the part that the validator looks at. Version 1 names
each key by its identifier. A field is read by its index, which panics where there is none.
-/

namespace PartnerChains

def PlutusData.asU16 (data : PlutusData) : Option UInt16 :=
  data.asU32.bind fun value => if value.toNat < 2 ^ 16 then some (.ofNat value.toNat) else none

namespace RegisteredCandidates

open AuthoritySelection PermissionedCandidates

/-! ## Registrations -/

structure AdaBasedStaking where
  pubKey : StakePoolPublicKey
  signature : MainchainSignature
  deriving DecidableEq

/-- The index of an output has 16 bits. -/
abbrev RegistrationUtxo := { utxo : UtxoId // utxo.index < 2 ^ 16 }

structure CandidateRegistration where
  stakeOwnership : AdaBasedStaking
  partnerChainPubKey : SidechainPublicKey
  partnerChainSignature : SidechainSignature
  ownPkh : MainchainKeyHash
  registrationUtxo : RegistrationUtxo
  keys : CandidateKeys
  deriving DecidableEq

/-- Every key of the first registration is one of the second. -/
def CandidateRegistration.matchesKeys (self other : CandidateRegistration) : Bool :=
  self.stakeOwnership = other.stakeOwnership &&
    self.partnerChainPubKey = other.partnerChainPubKey &&
    self.partnerChainSignature = other.partnerChainSignature &&
    self.keys.all fun key => other.keys.contains key

inductive RegisterValidatorDatum where
  | v0 (stakeOwnership : AdaBasedStaking) (sidechainPubKey : SidechainPublicKey)
      (sidechainSignature : SidechainSignature) (registrationUtxo : RegistrationUtxo)
      (ownPkh : MainchainKeyHash) (auraPubKey grandpaPubKey : ByteString)
  | v1 (stakeOwnership : AdaBasedStaking) (sidechainPubKey : SidechainPublicKey)
      (sidechainSignature : SidechainSignature) (registrationUtxo : RegistrationUtxo)
      (ownPkh : MainchainKeyHash) (keys : CandidateKeys)
  deriving DecidableEq

/-! ## Encoding -/

def txHashToPlutusData (hash : McTxHash) : PlutusData := .constr 0 [.bytes hash.val]

def utxoIdToPlutusData (utxo : RegistrationUtxo) : PlutusData :=
  .constr 0 [txHashToPlutusData utxo.val.txHash, .integer utxo.val.index]

def stakeOwnershipToPlutusData (ownership : AdaBasedStaking) : PlutusData :=
  .constr 0 [.bytes ownership.pubKey.val, .bytes ownership.signature.val]

def RegisterValidatorDatum.toPlutusData : RegisterValidatorDatum → PlutusData
  | v0 stakeOwnership sidechainPubKey sidechainSignature registrationUtxo ownPkh auraPubKey
      grandpaPubKey =>
      VersionedGenericDatum.toPlutusData
        { datum := .bytes ownPkh.val
          appendix := .constr 0 [stakeOwnershipToPlutusData stakeOwnership,
            .bytes sidechainPubKey, .bytes sidechainSignature,
            utxoIdToPlutusData registrationUtxo, .bytes auraPubKey, .bytes grandpaPubKey]
          version := 0 }
  | v1 stakeOwnership sidechainPubKey sidechainSignature registrationUtxo ownPkh keys =>
      VersionedGenericDatum.toPlutusData
        { datum := .bytes ownPkh.val
          appendix := .constr 0 [stakeOwnershipToPlutusData stakeOwnership,
            .bytes sidechainPubKey, .bytes sidechainSignature,
            utxoIdToPlutusData registrationUtxo, candidateKeysToPlutus keys]
          version := 1 }

def candidateRegistrationToPlutusData (registration : CandidateRegistration) : PlutusData :=
  RegisterValidatorDatum.toPlutusData
    (if hasOnlyAuraAndGrandpaKeys registration.keys then
      .v0 registration.stakeOwnership registration.partnerChainPubKey
        registration.partnerChainSignature registration.registrationUtxo registration.ownPkh
        (findOrEmpty registration.keys auraKeyTypeId)
        (findOrEmpty registration.keys grandpaKeyTypeId)
    else
      .v1 registration.stakeOwnership registration.partnerChainPubKey
        registration.partnerChainSignature registration.registrationUtxo registration.ownPkh
        registration.keys)

def CandidateRegistration.ofDatum : RegisterValidatorDatum → CandidateRegistration
  | .v0 stakeOwnership sidechainPubKey sidechainSignature registrationUtxo ownPkh auraPubKey
      grandpaPubKey =>
      { stakeOwnership
        partnerChainPubKey := sidechainPubKey
        partnerChainSignature := sidechainSignature
        registrationUtxo
        ownPkh
        keys := [⟨auraKeyTypeId, auraPubKey⟩, ⟨grandpaKeyTypeId, grandpaPubKey⟩] }
  | .v1 stakeOwnership sidechainPubKey sidechainSignature registrationUtxo ownPkh keys =>
      { stakeOwnership
        partnerChainPubKey := sidechainPubKey
        partnerChainSignature := sidechainSignature
        registrationUtxo
        ownPkh
        keys }

/-! ## Decoding -/

/-- A decoder panics, rejects its data, or returns a value. -/
abbrev Decoder (α : Type) := OptionT (Except Panic) α

namespace Decoder

variable {α : Type}

def ofOption (value : Option α) : Decoder α := OptionT.mk (.ok value)

def get (fields : List PlutusData) (index : ℕ) : Decoder PlutusData :=
  OptionT.mk ((PlutusData.get fields index).map some)

def bytes (data : PlutusData) : Decoder ByteString := ofOption data.asBytes

def array (length : ℕ) (data : PlutusData) : Decoder (Bytes length) := do
  let bytes ← bytes data
  ofOption (Bytes.tryFrom length bytes)

/-- The fields of the constructor with number zero, when there is an accepted number of them. -/
def constructorFields (accepted : ℕ → Bool) (data : PlutusData) : Decoder (List PlutusData) :=
  ofOption (match data.asConstrPlutusData with
    | some (0, fields) => if accepted fields.length then some fields else none
    | _ => none)

def okOr (message : String) (decoder : Decoder α) : Except Panic (Except String α) := do
  match ← decoder.run with
  | some value => .ok (.ok value)
  | none => .ok (.error message)

end Decoder

def decodeTxHashDatum (datum : PlutusData) : Decoder McTxHash := do
  let fields ← Decoder.constructorFields (fun length => 1 ≤ length) datum
  Decoder.array 32 (← Decoder.get fields 0)

def decodeUtxoIdDatum (datum : PlutusData) : Decoder RegistrationUtxo := do
  let fields ← Decoder.constructorFields (fun length => 2 ≤ length) datum
  let txHash ← decodeTxHashDatum (← Decoder.get fields 0)
  let index ← Decoder.ofOption (← Decoder.get fields 1).asU16
  return ⟨⟨txHash, index.toNat⟩, index.toNat_lt⟩

def decodeAdaBasedStakingDatum (datum : PlutusData) : Decoder AdaBasedStaking := do
  let fields ← Decoder.constructorFields (fun length => 2 ≤ length) datum
  let pubKey ← Decoder.array 32 (← Decoder.get fields 0)
  let signature ← Decoder.array 64 (← Decoder.get fields 1)
  return ⟨pubKey, signature⟩

def decodeV0RegisterValidatorDatum (datum appendix : PlutusData) :
    Decoder RegisterValidatorDatum := do
  let fields ← Decoder.constructorFields (fun length => 6 ≤ length) appendix
  let stakeOwnership ← decodeAdaBasedStakingDatum (← Decoder.get fields 0)
  let sidechainPubKey ← Decoder.bytes (← Decoder.get fields 1)
  let sidechainSignature ← Decoder.bytes (← Decoder.get fields 2)
  let registrationUtxo ← decodeUtxoIdDatum (← Decoder.get fields 3)
  let auraPubKey ← Decoder.bytes (← Decoder.get fields 4)
  let grandpaPubKey ← Decoder.bytes (← Decoder.get fields 5)
  let ownPkh ← Decoder.array 28 datum
  return .v0 stakeOwnership sidechainPubKey sidechainSignature registrationUtxo ownPkh auraPubKey
    grandpaPubKey

def decodeV1RegisterValidatorDatum (datum appendix : PlutusData) :
    Decoder RegisterValidatorDatum := do
  let fields ← Decoder.constructorFields (fun length => length = 5) appendix
  let stakeOwnership ← decodeAdaBasedStakingDatum (← Decoder.get fields 0)
  let sidechainPubKey ← Decoder.bytes (← Decoder.get fields 1)
  let sidechainSignature ← Decoder.bytes (← Decoder.get fields 2)
  let registrationUtxo ← decodeUtxoIdDatum (← Decoder.get fields 3)
  let keys ← Decoder.ofOption (decodeCandidateKeys (← Decoder.get fields 4))
  let ownPkh ← Decoder.array 28 datum
  return .v1 stakeOwnership sidechainPubKey sidechainSignature registrationUtxo ownPkh keys

def decodeLegacyRegisterValidatorDatum (datum : PlutusData) :
    Decoder RegisterValidatorDatum := do
  let fields ← Decoder.constructorFields (fun length => 7 ≤ length) datum
  let stakeOwnership ← decodeAdaBasedStakingDatum (← Decoder.get fields 0)
  let sidechainPubKey ← Decoder.bytes (← Decoder.get fields 1)
  let sidechainSignature ← Decoder.bytes (← Decoder.get fields 2)
  let registrationUtxo ← decodeUtxoIdDatum (← Decoder.get fields 3)
  let ownPkh ← Decoder.array 28 (← Decoder.get fields 4)
  let auraPubKey ← Decoder.bytes (← Decoder.get fields 5)
  let grandpaPubKey ← Decoder.bytes (← Decoder.get fields 6)
  return .v0 stakeOwnership sidechainPubKey sidechainSignature registrationUtxo ownPkh auraPubKey
    grandpaPubKey

namespace RegisterValidatorDatum

def decodeLegacy (data : PlutusData) : Except Panic (Except String RegisterValidatorDatum) :=
  (decodeLegacyRegisterValidatorDatum data).okOr "Invalid data"

def decodeVersioned (version : ℕ) (datum appendix : PlutusData) :
    Except Panic (Except String RegisterValidatorDatum) :=
  match version with
  | 0 => (decodeV0RegisterValidatorDatum datum appendix).okOr "Can not parse appendix"
  | 1 => (decodeV1RegisterValidatorDatum datum appendix).okOr "Can not parse appendix"
  | _ => .ok (.error s!"Unknown version: {version}")

def decode (data : PlutusData) :
    Except Panic (Except DataDecodingError RegisterValidatorDatum) := do
  let decoded ← match plutusDataVersionAndPayload data with
    | none => decodeLegacy data
    | some versioned => decodeVersioned versioned.version versioned.datum versioned.appendix
  .ok (decoded.mapError fun msg => ⟨data, "RegisterValidatorDatum", msg⟩)

end RegisterValidatorDatum

end RegisteredCandidates

end PartnerChains
