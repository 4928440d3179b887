import PartnerChains.Algorithm.Datum
import PartnerChains.Algorithm.Selection

/-!
# Selection of authorities from main chain data

Registrations are checked, the latest valid one of each stake pool is kept, and the
committee is drawn from what is left.
-/

namespace PartnerChains.AuthoritySelection

open Selection (Weight Rng Seed)

/-! ## Data read from the main chain -/

abbrev StakePoolPublicKey := Bytes 32
abbrev MainchainSignature := Bytes 64
abbrev SidechainPublicKey := ByteString
abbrev SidechainSignature := ByteString
abbrev CrossChainPublicKey := ByteString
abbrev CrossChainSignature := ByteString
abbrev StakeDelegation := UInt64
abbrev KeyTypeId := Bytes 4

structure CandidateKey where
  id : KeyTypeId
  bytes : ByteString
  deriving DecidableEq

abbrev CandidateKeys := List CandidateKey

structure UtxoInfo where
  utxoId : UtxoId
  epochNumber : McEpochNumber
  blockNumber : McBlockNumber
  slotNumber : McSlotNumber
  txIndexWithinBlock : McTxIndexInBlock
  deriving DecidableEq

/-- The position of an output: its block, its transaction and its index. -/
abbrev UtxoInfoOrderingKey := McBlockNumber ×ₗ McTxIndexInBlock ×ₗ UtxoIndex

def UtxoInfo.orderingKey (info : UtxoInfo) : UtxoInfoOrderingKey :=
  toLex (info.blockNumber, toLex (info.txIndexWithinBlock, info.utxoId.index))

structure RegistrationData where
  registrationUtxo : UtxoId
  sidechainSignature : SidechainSignature
  mainchainSignature : MainchainSignature
  crossChainSignature : CrossChainSignature
  sidechainPubKey : SidechainPublicKey
  crossChainPubKey : CrossChainPublicKey
  utxoInfo : UtxoInfo
  txInputs : List UtxoId
  keys : CandidateKeys
  deriving DecidableEq

structure CandidateRegistrations where
  stakePoolPublicKey : StakePoolPublicKey
  registrations : List RegistrationData
  stakeDelegation : Option StakeDelegation
  deriving DecidableEq

structure PermissionedCandidateData where
  sidechainPublicKey : SidechainPublicKey
  keys : CandidateKeys
  deriving DecidableEq

structure DParameter where
  numPermissionedCandidates : UInt16
  numRegisteredCandidates : UInt16
  deriving DecidableEq

structure AuthoritySelectionInputs where
  dParameter : DParameter
  permissionedCandidates : List PermissionedCandidateData
  registeredCandidates : List CandidateRegistrations
  epochNonce : ByteString
  deriving DecidableEq

/-! ## Candidates -/

variable {AccountId AccountKeys : Type}

structure CandidateWithStake (AccountId AccountKeys : Type) where
  stakePoolPubKey : StakePoolPublicKey
  stakeDelegation : StakeDelegation
  accountId : AccountId
  accountKeys : AccountKeys
  deriving DecidableEq

structure PermissionedCandidate (AccountId AccountKeys : Type) where
  accountId : AccountId
  accountKeys : AccountKeys
  deriving DecidableEq

inductive Candidate (AccountId AccountKeys : Type) where
  | permissioned (candidate : PermissionedCandidate AccountId AccountKeys)
  | registered (candidate : CandidateWithStake AccountId AccountKeys)
  deriving DecidableEq

/-- Permissioned candidates come first; the fields are compared in their order. -/
def Candidate.orderKey : Candidate AccountId AccountKeys →
    (AccountId ×ₗ AccountKeys) ⊕ₗ (StakePoolPublicKey ×ₗ ℕ ×ₗ AccountId ×ₗ AccountKeys)
  | permissioned c => toLex (.inl (toLex (c.accountId, c.accountKeys)))
  | registered c => toLex (.inr (toLex (c.stakePoolPubKey,
      toLex (c.stakeDelegation.toNat, toLex (c.accountId, c.accountKeys)))))

theorem Candidate.orderKey_injective :
    Function.Injective (@orderKey AccountId AccountKeys) := by
  rintro (⟨_, _⟩ | ⟨_, _, _, _⟩) (⟨_, _⟩ | ⟨_, _, _, _⟩) h
  all_goals simp_all [orderKey, UInt64.toNat_inj]

instance [LinearOrder AccountId] [LinearOrder AccountKeys] :
    LinearOrder (Candidate AccountId AccountKeys) :=
  LinearOrder.lift' Candidate.orderKey Candidate.orderKey_injective

inductive CommitteeMember (AccountId AccountKeys : Type) where
  | permissioned (id : AccountId) (keys : AccountKeys)
  | registered (id : AccountId) (keys : AccountKeys) (stakePoolPubKey : StakePoolPublicKey)
  deriving DecidableEq

def CommitteeMember.ofCandidate :
    Candidate AccountId AccountKeys → CommitteeMember AccountId AccountKeys
  | .permissioned member => .permissioned member.accountId member.accountKeys
  | .registered member =>
      .registered member.accountId member.accountKeys member.stakePoolPubKey

namespace CommitteeMember

def authorityId : CommitteeMember AccountId AccountKeys → AccountId
  | permissioned id _ => id
  | registered id _ _ => id

def authorityKeys : CommitteeMember AccountId AccountKeys → AccountKeys
  | permissioned _ keys => keys
  | registered _ keys _ => keys

end CommitteeMember

/-! ## Validation -/

/-- What the runtime brings: the account of a public key, the identifiers and the decoder of
its session keys, and the two signature schemes. -/
structure Runtime (AccountId AccountKeys : Type) where
  accountId : Bytes 33 → AccountId
  keyIds : List KeyTypeId
  decode : ByteString → Option AccountKeys
  ed25519Verify : Bytes 64 → ByteString → Bytes 32 → Bool
  ecdsaVerify : Bytes 65 → ByteString → Bytes 33 → Bool

inductive StakeError where
  | invalidStake
  | unknownStake
  deriving DecidableEq

inductive RegistrationDataError where
  | invalidMainchainSignature
  | invalidSidechainSignature
  | invalidTxInput
  | invalidMainchainPubKey
  | invalidSidechainPubKey
  | invalidAccountKeys
  deriving DecidableEq

inductive PermissionedCandidateDataError where
  | invalidSidechainPubKey
  | invalidAccountKeys
  deriving DecidableEq

structure RegisterValidatorSignedMessage where
  genesisUtxo : UtxoId
  sidechainPubKey : ByteString
  registrationUtxo : UtxoId

def RegisterValidatorSignedMessage.toDatum (message : RegisterValidatorSignedMessage) : Datum :=
  .constructorDatum 0 [message.genesisUtxo.toDatum, .byteStringDatum message.sidechainPubKey,
    message.registrationUtxo.toDatum]

/-! ## Session keys -/

/-- The fields of a session key type: the identifier of each key and the length of its
encoding. -/
abbrev SessionKeyFields := List (KeyTypeId × ℕ)

/-- Session keys by their identifiers, in the order of the fields. -/
abbrev SessionKeys := List (KeyTypeId × ByteString)

/-- Each key is read off the front with its length. What is left over is ignored. -/
def decodeSessionKeys : SessionKeyFields → ByteString → Option SessionKeys
  | [], _ => some []
  | (id, length) :: fields, input =>
      if length ≤ input.length then
        (decodeSessionKeys fields (input.drop length)).map ((id, input.take length) :: ·)
      else none

def Runtime.withSessionKeys (runtime : Runtime AccountId SessionKeys)
    (fields : SessionKeyFields) : Runtime AccountId SessionKeys :=
  { runtime with keyIds := fields.map Prod.fst, decode := decodeSessionKeys fields }

def encodedKeysBound : ℕ := 1024

/-- The key with the given identifier is put behind those already encoded. -/
def appendKey (keys : CandidateKeys) (encodedKeys : ByteString) (keyId : KeyTypeId) :
    Option ByteString := do
  let key ← keys.find? fun key => key.id = keyId
  if encodedKeys.length + key.bytes.length ≤ encodedKeysBound then
    some (encodedKeys ++ key.bytes)
  else none

section Validation

variable (runtime : Runtime AccountId AccountKeys)

/-- The required keys, one after the other, are decoded to the session keys. -/
def maybeFrom (keys : CandidateKeys) : Option AccountKeys := do
  let encodedKeys ← runtime.keyIds.foldlM (appendKey keys) []
  runtime.decode encodedKeys

def validateStake : Option StakeDelegation → Except StakeError StakeDelegation
  | none => .error .unknownStake
  | some stake => if stake = 0 then .error .invalidStake else .ok stake

def verifyStakePoolSignature (stakePoolPubKey : StakePoolPublicKey)
    (registrationData : RegistrationData) (signedMessageEncoded : ByteString) :
    Except RegistrationDataError Unit :=
  if runtime.ed25519Verify registrationData.mainchainSignature signedMessageEncoded
      stakePoolPubKey then .ok ()
  else .error .invalidMainchainSignature

def negativePointSign : UInt8 := 27

def positivePointSign : UInt8 := 28

def signatureWithV (signature : Bytes 64) (v : UInt8) : Bytes 65 :=
  ⟨signature.val ++ [v], by simp [signature.property]⟩

/-- The recovery byte is not part of the registration: both values are tried. -/
def verifySidechainSignature (pubKey : Bytes 33) (signature : SidechainSignature)
    (signedMessageEncoded : ByteString) : Except RegistrationDataError Unit :=
  match Bytes.tryFrom 64 signature with
  | none => .error .invalidSidechainSignature
  | some sidechainSignature =>
      if [negativePointSign, positivePointSign].any fun v =>
          runtime.ecdsaVerify (signatureWithV sidechainSignature v) signedMessageEncoded pubKey
      then .ok ()
      else .error .invalidSidechainSignature

def verifyTxInputs (registrationData : RegistrationData) : Except RegistrationDataError Unit :=
  if registrationData.registrationUtxo ∈ registrationData.txInputs then .ok ()
  else .error .invalidTxInput

def validateRegistrationData (stakePoolPubKey : StakePoolPublicKey)
    (registrationData : RegistrationData) (genesisUtxo : UtxoId) :
    Except RegistrationDataError (Bytes 33 × AccountKeys) := do
  let accountKeys ← (maybeFrom runtime registrationData.keys).elim
    (.error .invalidAccountKeys) .ok
  let sidechainPubKey ← (Bytes.tryFrom 33 registrationData.sidechainPubKey).elim
    (.error .invalidSidechainPubKey) .ok
  let signedMessage : RegisterValidatorSignedMessage :=
    { genesisUtxo
      sidechainPubKey := registrationData.sidechainPubKey
      registrationUtxo := registrationData.registrationUtxo }
  let signedMessageEncoded := signedMessage.toDatum.encodeDatum
  verifyStakePoolSignature runtime stakePoolPubKey registrationData signedMessageEncoded
  verifySidechainSignature runtime sidechainPubKey registrationData.sidechainSignature
    signedMessageEncoded
  verifyTxInputs registrationData
  .ok (sidechainPubKey, accountKeys)

def validatePermissionedCandidateData (candidate : PermissionedCandidateData) :
    Except PermissionedCandidateDataError (Bytes 33 × AccountKeys) := do
  let ecdsaBytes ← (Bytes.tryFrom 33 candidate.sidechainPublicKey).elim
    (.error .invalidSidechainPubKey) .ok
  let accountKeys ← (maybeFrom runtime candidate.keys).elim (.error .invalidAccountKeys) .ok
  .ok (ecdsaBytes, accountKeys)

/-! ## Filtering -/

/-- The element with the greatest key; among equals, the last one. -/
def maxByKey {α κ : Type} [LinearOrder κ] (key : α → κ) : List α → Option α
  | [] => none
  | x :: xs => some (xs.foldl (fun best y => if key y < key best then best else y) x)

def validRegistration (stakePoolPubKey : StakePoolPublicKey) (genesisUtxo : UtxoId)
    (registrationData : RegistrationData) : Option ((Bytes 33 × AccountKeys) × UtxoInfo) :=
  match validateRegistrationData runtime stakePoolPubKey registrationData genesisUtxo with
  | .ok candidate => some (candidate, registrationData.utxoInfo)
  | .error _ => none

/-- The registration that counts is the latest valid one. -/
def selectLatestValidCandidate (candidateRegistrations : CandidateRegistrations)
    (genesisUtxo : UtxoId) : Option (CandidateWithStake AccountId AccountKeys) := do
  let stakeDelegation ← (validateStake candidateRegistrations.stakeDelegation).toOption
  let stakePoolPubKey := candidateRegistrations.stakePoolPublicKey
  let ((pubKey, accountKeys), _) ← maxByKey (fun candidate => candidate.2.orderingKey)
    (candidateRegistrations.registrations.filterMap
      (validRegistration runtime stakePoolPubKey genesisUtxo))
  some { stakePoolPubKey, stakeDelegation, accountId := runtime.accountId pubKey, accountKeys }

def filterTrustlessCandidatesRegistrations
    (candidateRegistrations : List CandidateRegistrations) (genesisUtxo : UtxoId) :
    List (Candidate AccountId AccountKeys × Weight) :=
  (candidateRegistrations.filterMap fun registrations =>
    selectLatestValidCandidate runtime registrations genesisUtxo).map fun candidate =>
      (.registered candidate, candidate.stakeDelegation.toNat)

def filterInvalidPermissionedCandidates
    (permissionedCandidates : List PermissionedCandidateData) :
    List (Candidate AccountId AccountKeys) :=
  permissionedCandidates.filterMap fun candidate =>
    match validatePermissionedCandidateData runtime candidate with
    | .ok (pubKey, accountKeys) =>
        some (.permissioned { accountId := runtime.accountId pubKey, accountKeys })
    | .error _ => none

end Validation

/-! ## Selection -/

/-- The nonce, cut or filled with zeros to 32 bytes. -/
def epochNonceAsArray (epochNonce : ByteString) : Bytes 32 :=
  ⟨epochNonce.takeD 32 0, List.takeD_length 32 epochNonce 0⟩

/-- The sum of nonce and epoch wraps around at 256 bits. -/
def seedFromNonceAndScEpoch (epochNonce : ByteString) (epoch : ScEpochNumber) : Seed :=
  .ofNatBigEndian 32 (((epochNonceAsArray epochNonce).toNatBigEndian + epoch.toNat) % 2 ^ 256)

section Selection

variable [LinearOrder AccountId] [LinearOrder AccountKeys] (rng : Rng)
  (runtime : Runtime AccountId AccountKeys)

/-- Each selection is that of a build that checks for overflow, or of one that does not. -/
def selectCandidatesWith (overflowChecks : Bool) (genesisUtxo : UtxoId)
    (input : AuthoritySelectionInputs) (sidechainEpoch : ScEpochNumber) :
    Except Panic (Option (List (CommitteeMember AccountId AccountKeys))) := do
  let validators ← Selection.AriadneV2.selectAuthoritiesWith overflowChecks rng
    input.dParameter.numRegisteredCandidates input.dParameter.numPermissionedCandidates
    (filterTrustlessCandidatesRegistrations runtime input.registeredCandidates genesisUtxo)
    (filterInvalidPermissionedCandidates runtime input.permissionedCandidates)
    (seedFromNonceAndScEpoch input.epochNonce sidechainEpoch)
  .ok (validators.map fun members => members.map CommitteeMember.ofCandidate)

def selectAuthoritiesWith (overflowChecks : Bool) (maxAuthorities : ℕ) (genesisUtxo : UtxoId)
    (input : AuthoritySelectionInputs) (sidechainEpoch : ScEpochNumber) :
    Except Panic (Option (BoundedVec (CommitteeMember AccountId AccountKeys) maxAuthorities)) :=
  do
    let candidates ←
      selectCandidatesWith rng runtime overflowChecks genesisUtxo input sidechainEpoch
    .ok (candidates.map (BoundedVec.truncateFrom maxAuthorities))

def selectAuthorities (maxAuthorities : ℕ) (genesisUtxo : UtxoId)
    (input : AuthoritySelectionInputs) (sidechainEpoch : ScEpochNumber) :
    Except Panic (Option (BoundedVec (CommitteeMember AccountId AccountKeys) maxAuthorities)) :=
  selectAuthoritiesWith rng runtime true maxAuthorities genesisUtxo input sidechainEpoch

end Selection

end PartnerChains.AuthoritySelection
