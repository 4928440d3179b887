import PartnerChains.Algorithm.AuthoritySelection
import PartnerChains.Algorithm.BlockSearch
import PartnerChains.Algorithm.PlutusData
import PartnerChains.Library.KeyedMap
import PartnerChains.Library.StableOrder

/-!
# The registrations of an epoch, as a node answers them

For each stake pool, the registrations from the latest valid one on. The runtime decides which of
them are valid.
-/

namespace PartnerChains.RegistrationsQuery

open AuthoritySelection BlockSearch StableOrder

/-! ## Entries -/

inductive RegistrationError where
  | stakeError (error : StakeError)
  | invalidRegistrationData (error : RegistrationDataError)
  deriving DecidableEq

structure CandidateRegistrationEntry where
  sidechainPubKey : String
  sidechainAccountId : String
  mainchainPubKey : String
  crossChainPubKey : String
  keys : AList fun _ : String => ByteString
  sidechainSignature : String
  mainchainSignature : String
  crossChainSignature : String
  utxo : UtxoInfo
  stakeDelegation : Option UInt64
  isValid : Bool
  invalidReasons : Option RegistrationError

/-- The mainchain public key of each candidate, in hex, with the entries of the candidate. -/
abbrev GetRegistrationsResponseMap := AList fun _ : String => List CandidateRegistrationEntry

def hexDigits (byte : UInt8) : List Char :=
  [Nat.digitChar (byte.toNat / 16), Nat.digitChar (byte.toNat % 16)]

def toHex (bytes : ByteString) : String :=
  String.ofList ('0' :: 'x' :: bytes.flatMap hexDigits)

def keysToMap (keys : CandidateKeys) : AList fun _ : String => ByteString :=
  KeyedMap.insertAll ∅ (keys.map fun key =>
    ((GovernedMapDatum.stringFromUtf8 key.id.val).getD "<invalid>", key.bytes))

section Entries

/-! The SS58 text of the account of a public key is a parameter. -/

variable (accountSs58 : Bytes 33 → String)

def sidechainAccountSs58 (sidechainPubKey : SidechainPublicKey) : Except ByteString String :=
  match Bytes.tryFrom 33 sidechainPubKey with
  | none => .error sidechainPubKey
  | some sidechainEcdsaPubKey => .ok (accountSs58 sidechainEcdsaPubKey)

def CandidateRegistrationEntry.new (registrationData : RegistrationData)
    (stakePoolPublicKey : StakePoolPublicKey) (stakeDelegation : Option StakeDelegation)
    (invalidReasons : Option RegistrationDataError) : CandidateRegistrationEntry where
  sidechainPubKey := toHex registrationData.sidechainPubKey
  sidechainAccountId :=
    (sidechainAccountSs58 accountSs58 registrationData.sidechainPubKey).toOption.getD
      "Invalid Sidechain Public Key. Could not decode..."
  mainchainPubKey := toHex stakePoolPublicKey.val
  crossChainPubKey := toHex registrationData.crossChainPubKey
  keys := keysToMap registrationData.keys
  sidechainSignature := toHex registrationData.sidechainSignature
  mainchainSignature := toHex registrationData.mainchainSignature.val
  crossChainSignature := toHex registrationData.crossChainSignature
  utxo := registrationData.utxoInfo
  stakeDelegation := stakeDelegation
  isValid := invalidReasons.isNone
  invalidReasons := invalidReasons.map .invalidRegistrationData

/-! ## The query -/

/-- What the query asks the runtime. Each call may fail. -/
structure CandidateValidationApi where
  validateRegisteredCandidateData : StakePoolPublicKey → RegistrationData →
    Except ApiError (Option RegistrationDataError)
  validateStake : Option StakeDelegation → Except ApiError (Option StakeError)

variable (api : CandidateValidationApi)

def registrationEntries (candidate : CandidateRegistrations) :
    Except ApiError (List CandidateRegistrationEntry) :=
  candidate.registrations.mapM fun registrationData => do
    let registrationDataValidationResult ←
      api.validateRegisteredCandidateData candidate.stakePoolPublicKey registrationData
    .ok (.new accountSs58 registrationData candidate.stakePoolPublicKey candidate.stakeDelegation
      registrationDataValidationResult)

/-- The first entry turns invalid, if it was valid before. -/
def rejectFirst (error : StakeError) :
    List CandidateRegistrationEntry → List CandidateRegistrationEntry
  | [] => []
  | first :: later =>
      (if first.isValid then
        { first with isValid := false, invalidReasons := some (.stakeError error) }
      else first) :: later

def candidateEntries (candidate : CandidateRegistrations) :
    Except ApiError (List CandidateRegistrationEntry) := do
  let entries ← registrationEntries accountSs58 api candidate
  let sorted := sortByKey (fun entry => entry.utxo.orderingKey) entries
  let latestValidOrZero := (rposition (fun entry => entry.isValid) sorted).getD 0
  let remaining := sorted.drop latestValidOrZero
  match ← api.validateStake candidate.stakeDelegation with
  | some error => .ok (rejectFirst error remaining)
  | none => .ok remaining

def getRegistrationsResponseMap (candidates : List CandidateRegistrations) :
    Except ApiError GetRegistrationsResponseMap :=
  candidates.foldlM (fun map candidate => do
    let entries ← candidateEntries accountSs58 api candidate
    .ok (map.insert (toHex candidate.stakePoolPublicKey.val) entries)) ∅

end Entries

/-! ## The runtime -/

section Runtime

variable {AccountId AccountKeys : Type} (runtime : Runtime AccountId AccountKeys)

def validateRegisteredCandidateData (genesisUtxo : UtxoId)
    (stakePoolPublicKey : StakePoolPublicKey) (registrationData : RegistrationData) :
    Option RegistrationDataError :=
  match validateRegistrationData runtime stakePoolPublicKey registrationData genesisUtxo with
  | .ok _ => none
  | .error error => some error

def validateStakeDelegation (stake : Option StakeDelegation) : Option StakeError :=
  match validateStake stake with
  | .ok _ => none
  | .error error => some error

/-- The runtime answers with the checks of the selection. -/
def candidateValidationApi (genesisUtxo : UtxoId) : CandidateValidationApi where
  validateRegisteredCandidateData stakePoolPublicKey registrationData :=
    .ok (validateRegisteredCandidateData runtime genesisUtxo stakePoolPublicKey registrationData)
  validateStake stake := .ok (validateStakeDelegation stake)

end Runtime

end PartnerChains.RegistrationsQuery
