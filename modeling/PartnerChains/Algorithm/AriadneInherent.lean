import PartnerChains.Algorithm.AuthoritySelection
import PartnerChains.Algorithm.BlockSource
import PartnerChains.Algorithm.Committee

/-!
# The inherent data provider of committee selection

On the state of the parent block it predicts the epoch for which a committee will be selected,
and it collects the selection inputs for the Cardano epoch in which that epoch starts.
-/

namespace PartnerChains.AuthoritySelection

open BlockSource (MainchainEpochConfig)

/-! ## Partner Chain epochs and Cardano epochs -/

structure ScSlotConfig where
  slotsPerEpoch : UInt32
  /-- Milliseconds. -/
  slotDuration : UInt64

namespace ScSlotConfig

def epochNumber (cfg : ScSlotConfig) (slot : UInt64) : Except Panic ScEpochNumber := do
  let epoch ← Checked.div slot.toNat cfg.slotsPerEpoch.toNat
  .ok (UInt64.ofNat epoch)

def firstSlotNumber (overflowChecks : Bool) (cfg : ScSlotConfig) (epoch : ScEpochNumber) :
    Except Panic ℕ :=
  Checked.mulWith overflowChecks 64 epoch.toNat cfg.slotsPerEpoch.toNat

/-- The time at which an epoch starts, unless it has more than 64 bits. -/
def epochStartTime (overflowChecks : Bool) (cfg : ScSlotConfig) (epoch : ScEpochNumber) :
    Except Panic (Option ℕ) := do
  let slot ← cfg.firstSlotNumber overflowChecks epoch
  let time := slot * cfg.slotDuration.toNat
  .ok (if time < 2 ^ 64 then some time else none)

end ScSlotConfig

inductive EpochDerivationError where
  | panic (panic : Panic)
  | timestampTooSmall
  | epochTooBig
  | epochTooSmall
  | slotTooSmall
  deriving DecidableEq

/-- The number of Cardano epochs since the first one has 31 bits. -/
def epochsPassed (cfg : MainchainEpochConfig) (timestamp : ℕ) :
    Except EpochDerivationError ℕ :=
  if timestamp < cfg.firstEpochTimestampMillis.toNat then .error .timestampTooSmall
  else do
    let passed ← (Checked.div (timestamp - cfg.firstEpochTimestampMillis.toNat)
      cfg.epochDurationMillis.toNat).mapError .panic
    if passed < 2 ^ 31 then .ok passed else .error .epochTooBig

def timestampToMainchainEpoch (cfg : MainchainEpochConfig) (timestamp : ℕ) :
    Except EpochDerivationError McEpochNumber := do
  let passed ← epochsPassed cfg timestamp
  .ok (min (cfg.firstEpochNumber.toNat + passed) (2 ^ 32 - 1))

/-! ## The data source -/

structure AriadneParameters where
  dParameter : DParameter
  permissionedCandidates : Option (List PermissionedCandidateData)
  deriving DecidableEq

structure AuthoritySelectionDataSource (ε : Type) where
  getAriadneParameters : McEpochNumber → PolicyId → PolicyId → Except ε AriadneParameters
  getCandidates : McEpochNumber → MainchainAddress → Except ε (List CandidateRegistrations)
  getEpochNonce : McEpochNumber → Except ε (Option ByteString)
  dataEpoch : McEpochNumber → Except ε McEpochNumber

inductive AuthoritySelectionInputsCreationError (ε : Type) where
  | ariadneParametersQuery (epoch : McEpochNumber) (dParameter permissionedCandidates : PolicyId)
      (error : ε ⊕ String)
  | getCandidatesQuery (epoch : McEpochNumber) (address : MainchainAddress) (error : ε)
  | getEpochNonceQuery (epoch : McEpochNumber) (error : ε)

/-- The list of permissioned candidates may be missing only when none is to be selected. -/
def AuthoritySelectionInputs.fromMcData {ε : Type} (source : AuthoritySelectionDataSource ε)
    (forEpoch : McEpochNumber) (scripts : Committee.MainChainScripts) :
    Except (AuthoritySelectionInputsCreationError ε) AuthoritySelectionInputs := do
  let response ← (source.getAriadneParameters forEpoch scripts.dParameterPolicyId
    scripts.permissionedCandidatesPolicyId).mapError fun error =>
      .ariadneParametersQuery forEpoch scripts.dParameterPolicyId
        scripts.permissionedCandidatesPolicyId (.inl error)
  let permissionedCandidates ← match response.permissionedCandidates with
    | some permissionedCandidates => .ok permissionedCandidates
    | none =>
        if response.dParameter.numPermissionedCandidates = 0 then .ok []
        else .error (.ariadneParametersQuery forEpoch scripts.dParameterPolicyId
          scripts.permissionedCandidatesPolicyId
          (.inr "Expected Data Not Found: Permissioned Candidates List"))
  let registeredCandidates ← (source.getCandidates forEpoch
    scripts.committeeCandidateAddress).mapError
      (.getCandidatesQuery forEpoch scripts.committeeCandidateAddress)
  let epochNonce ← (source.getEpochNonce forEpoch).mapError (.getEpochNonceQuery forEpoch)
  .ok { dParameter := response.dParameter, permissionedCandidates, registeredCandidates,
        epochNonce := epochNonce.getD [] }

/-! ## The provider -/

inductive InherentProviderCreationError (ε : Type) where
  | panic (panic : Panic)
  | slotTooBig
  | mcEpochDerivationError (error : EpochDerivationError)
  | inputsCreationError (error : AuthoritySelectionInputsCreationError ε)
  | dataSourceError (error : ε)

/-- The configuration that the node passes to the provider. -/
structure ProviderConfig where
  overflowChecks : Bool
  scSlotConfig : ScSlotConfig
  mcEpochConfig : MainchainEpochConfig

section Provider

variable {Member : Type} {maxValidators : ℕ} {ε : Type} (cfg : ProviderConfig)

def scEpochToMcEpoch (scEpoch : ScEpochNumber) :
    Except (InherentProviderCreationError ε) McEpochNumber := do
  match ← (cfg.scSlotConfig.epochStartTime cfg.overflowChecks scEpoch).mapError .panic with
  | none => .error .slotTooBig
  | some timestamp =>
      (timestampToMainchainEpoch cfg.mcEpochConfig timestamp).mapError .mcEpochDerivationError

/-- The genesis committee has epoch 0, so for the first block the epoch is taken from the
slot. -/
def mcEpochForNextAriadneCidp (parent : Committee.Storage Member maxValidators)
    (slot : UInt64) : Except (InherentProviderCreationError ε) McEpochNumber := do
  let nextUnsetEpoch := Committee.getNextUnsetEpochNumber parent
  let forScEpochNumber ←
    if nextUnsetEpoch = 1 then (cfg.scSlotConfig.epochNumber slot).mapError .panic
    else .ok nextUnsetEpoch
  scEpochToMcEpoch cfg forScEpochNumber

/-- The inputs are provided only when the epoch of the data is before the latest stable
one. -/
def AriadneInherentDataProvider.new (parent : Committee.Storage Member maxValidators)
    (slot : UInt64) (source : AuthoritySelectionDataSource ε) (mcReferenceEpoch : McEpochNumber) :
    Except (InherentProviderCreationError ε) (Option AuthoritySelectionInputs) := do
  let forMcEpoch ← mcEpochForNextAriadneCidp cfg parent slot
  let dataEpoch ← (source.dataEpoch forMcEpoch).mapError .dataSourceError
  if dataEpoch < mcReferenceEpoch then
    let data ← (AuthoritySelectionInputs.fromMcData source forMcEpoch
      parent.mainChainScriptsConfiguration).mapError .inputsCreationError
    .ok (some data)
  else .ok none

end Provider

end PartnerChains.AuthoritySelection
