import PartnerChains.Algorithm.Domain

/-!
# The session committee pallet and its session manager

The pallet stores the committee in service and the one selected for the following
epoch. The session manager decides when the session ends and moves the stored
committee into service. Blocks are initialized by the hooks of the committee pallet
and of the session pallet, in this order.
-/

namespace PartnerChains.Committee

/-! ## Storage and configuration -/

structure CommitteeInfo (Member : Type) (maxValidators : ℕ) where
  epoch : ScEpochNumber
  committee : BoundedVec Member maxValidators
  deriving DecidableEq

structure MainChainScripts where
  committeeCandidateAddress : MainchainAddress
  dParameterPolicyId : PolicyId
  permissionedCandidatesPolicyId : PolicyId
  deriving DecidableEq

structure Storage (Member : Type) (maxValidators : ℕ) where
  currentCommittee : CommitteeInfo Member maxValidators
  nextCommittee : Option (CommitteeInfo Member maxValidators)
  mainChainScriptsConfiguration : MainChainScripts
  deriving DecidableEq

/-- The items of the pallet's configuration that its logic calls. `inputsHash` stands
for the BLAKE2 hash of the encoded selection inputs. -/
structure Config (Member AccountId AuthorityKeys Inputs : Type) (maxValidators : ℕ) where
  selectAuthorities : Inputs → ScEpochNumber → Option (BoundedVec Member maxValidators)
  authorityId : Member → AccountId
  authorityKeys : Member → AuthorityKeys
  inputsHash : Inputs → Bytes 32
  mainChainScriptsOrigin : Origin → Bool

structure GenesisConfig (Member : Type) where
  initialAuthorities : List Member
  mainChainScripts : MainChainScripts

def GenesisConfig.build {Member : Type} (maxValidators : ℕ)
    (genesis : GenesisConfig Member) : Storage Member maxValidators where
  currentCommittee := ⟨0, BoundedVec.truncateFrom maxValidators genesis.initialAuthorities⟩
  nextCommittee := none
  mainChainScriptsConfiguration := genesis.mainChainScripts

variable {Member AccountId AuthorityKeys Inputs : Type} {maxValidators : ℕ}

/-- The first block makes the genesis committee the committee of its own epoch. -/
def onInitialize (blockNr : ℕ) (currentEpochNumber : ScEpochNumber)
    (s : Storage Member maxValidators) : Storage Member maxValidators :=
  if blockNr = 1 then
    { s with currentCommittee := { s.currentCommittee with epoch := currentEpochNumber } }
  else s

/-! ## Calls -/

inductive Call (Member : Type) (maxValidators : ℕ) where
  | set (validators : BoundedVec Member maxValidators) (forEpochNumber : ScEpochNumber)
      (selectionInputsHash : Bytes 32)
  | setMainChainScripts (committeeCandidateAddress : MainchainAddress)
      (dParameterPolicyId permissionedCandidatesPolicyId : PolicyId)
  deriving DecidableEq

inductive DispatchError where
  | badOrigin
  | invalidEpoch
  | nextCommitteeAlreadySet
  deriving DecidableEq

def set (origin : Origin) (validators : BoundedVec Member maxValidators)
    (forEpochNumber : ScEpochNumber) (s : Storage Member maxValidators) :
    Except DispatchError (Storage Member maxValidators) :=
  if origin ≠ .none then .error .badOrigin
  else if forEpochNumber ≠ s.currentCommittee.epoch + 1 then .error .invalidEpoch
  else if s.nextCommittee.isSome then .error .nextCommitteeAlreadySet
  else .ok { s with nextCommittee := some ⟨forEpochNumber, validators⟩ }

variable (cfg : Config Member AccountId AuthorityKeys Inputs maxValidators)

def setMainChainScripts (origin : Origin) (committeeCandidateAddress : MainchainAddress)
    (dParameterPolicyId permissionedCandidatesPolicyId : PolicyId)
    (s : Storage Member maxValidators) :
    Except DispatchError (Storage Member maxValidators) :=
  if cfg.mainChainScriptsOrigin origin then
    .ok { s with
      mainChainScriptsConfiguration :=
        ⟨committeeCandidateAddress, dParameterPolicyId, permissionedCandidatesPolicyId⟩ }
  else .error .badOrigin

def dispatch (origin : Origin) (call : Call Member maxValidators)
    (s : Storage Member maxValidators) :
    Except DispatchError (Storage Member maxValidators) :=
  match call with
  | .set validators forEpochNumber _ => set origin validators forEpochNumber s
  | .setMainChainScripts address dParameter permissioned =>
      setMainChainScripts cfg origin address dParameter permissioned s

/-! ## Inherents -/

inductive InherentError where
  | invalidValidatorsMatchingHash (hash : Bytes 32)
  | invalidValidatorsHashMismatch (computed ofCall : Bytes 32)
  | committeeNeedsToBeStoredOneEpochInAdvance
  deriving DecidableEq

def inherentDataToAuthoritySelectionInputs (data : InherentSlot Inputs) :
    Except Panic (Inputs × Bytes 32) :=
  match data with
  | .error _ => .error ⟨"Validator inherent data not correctly encoded"⟩
  | .ok none => .error ⟨"Validator inherent data must be provided"⟩
  | .ok (some inputs) => .ok (inputs, cfg.inputsHash inputs)

def createInherent (s : Storage Member maxValidators) (data : InherentSlot Inputs) :
    Except Panic (Option (Call Member maxValidators)) :=
  if s.nextCommittee.isSome then .ok none
  else do
    let forEpochNumber := s.currentCommittee.epoch + 1
    let (inputs, selectionInputsHash) ← inherentDataToAuthoritySelectionInputs cfg data
    match cfg.selectAuthorities inputs forEpochNumber with
    | some validators => .ok (some (.set validators forEpochNumber selectionInputsHash))
    | none =>
        .ok (some (.set s.currentCommittee.committee forEpochNumber selectionInputsHash))

/-- The verifier runs on the parent state, before the rotation, hence the fallback to
the next committee. -/
def checkInherent [DecidableEq Member] (s : Storage Member maxValidators)
    (call : Call Member maxValidators) (data : InherentSlot Inputs) :
    Except Panic (Except InherentError Unit) :=
  match call with
  | .setMainChainScripts .. => .ok (.ok ())
  | .set validatorsParam forEpochNumberParam callSelectionInputsHash => do
      let (inputs, computedSelectionInputsHash) ←
        inherentDataToAuthoritySelectionInputs cfg data
      let validators := (cfg.selectAuthorities inputs forEpochNumberParam).getD
        (s.nextCommittee.getD s.currentCommittee).committee
      if validatorsParam ≠ validators then
        if callSelectionInputsHash = computedSelectionInputsHash then
          .ok (.error (.invalidValidatorsMatchingHash computedSelectionInputsHash))
        else
          .ok (.error (.invalidValidatorsHashMismatch computedSelectionInputsHash
            callSelectionInputsHash))
      else .ok (.ok ())

def isInherent : Call Member maxValidators → Bool
  | .set .. => true
  | .setMainChainScripts .. => false

def isInherentRequired (s : Storage Member maxValidators) : Option InherentError :=
  if s.nextCommittee.isNone then some .committeeNeedsToBeStoredOneEpochInAdvance else none

/-! ## Reading the committees -/

def getNextUnsetEpochNumber (s : Storage Member maxValidators) : ScEpochNumber :=
  (s.nextCommittee.map (·.epoch + 1)).getD (s.currentCommittee.epoch + 1)

def getCurrentAuthorityRoundRobin (s : Storage Member maxValidators) (index : ℕ) :
    Option Member :=
  let committee := s.currentCommittee.committee.toList
  if committee.isEmpty then none else committee[index % committee.length]?

def nextCommittee (s : Storage Member maxValidators) :
    Option (BoundedVec AccountId maxValidators) :=
  s.nextCommittee.map fun next =>
    BoundedVec.truncateFrom maxValidators (next.committee.toList.map cfg.authorityId)

def rotateCommitteeToNextEpoch (s : Storage Member maxValidators) :
    Option (List Member × Storage Member maxValidators) :=
  s.nextCommittee.map fun next =>
    (next.committee.toList, { s with currentCommittee := next, nextCommittee := none })

/-! ## The session manager and the session pallet -/

/-- The storage of the committee pallet together with what a rotation writes in the
session pallets: both session indices and the validators in service. -/
structure Runtime (Member AccountId AuthorityKeys : Type) (maxValidators : ℕ) where
  management : Storage Member maxValidators
  currentIndex : UInt32
  palletSessionCurrentIndex : UInt32
  validatorsAndKeys : List (AccountId × AuthorityKeys)

def validatorOfMember (member : Member) : AccountId × AuthorityKeys :=
  (cfg.authorityId member, cfg.authorityKeys member)

def newSessionGenesis (s : Storage Member maxValidators) :
    Option (List (AccountId × AuthorityKeys)) :=
  some (s.currentCommittee.committee.toList.map (validatorOfMember cfg))

def newSession (newIndex : UInt32) (r : Runtime Member AccountId AuthorityKeys maxValidators) :
    Except Panic (Option (List (AccountId × AuthorityKeys)) ×
      Runtime Member AccountId AuthorityKeys maxValidators) :=
  match rotateCommitteeToNextEpoch r.management with
  | none =>
      .error ⟨"Session should never end without current epoch validators defined. " ++
        "Check ShouldEndSession implementation or if it is used before starting new session"⟩
  | some (members, management) =>
      .ok (some (members.map (validatorOfMember cfg)),
        { r with management, palletSessionCurrentIndex := newIndex })

def shouldEndSession (currentEpochNumber : ScEpochNumber) (s : Storage Member maxValidators) :
    Bool :=
  decide (s.currentCommittee.epoch < currentEpochNumber) && (nextCommittee cfg s).isSome

def rotateSession (r : Runtime Member AccountId AuthorityKeys maxValidators) :
    Except Panic (Runtime Member AccountId AuthorityKeys maxValidators) := do
  let sessionIndex := r.currentIndex + 1
  let (validators, r) ← newSession cfg sessionIndex { r with currentIndex := sessionIndex }
  .ok { r with validatorsAndKeys := validators.getD r.validatorsAndKeys }

def initializeBlock (blockNr : ℕ) (currentEpochNumber : ScEpochNumber)
    (r : Runtime Member AccountId AuthorityKeys maxValidators) :
    Except Panic (Runtime Member AccountId AuthorityKeys maxValidators) :=
  let r := { r with management := onInitialize blockNr currentEpochNumber r.management }
  if shouldEndSession cfg currentEpochNumber r.management then rotateSession cfg r else .ok r

def genesisRuntime (genesis : GenesisConfig Member) :
    Runtime Member AccountId AuthorityKeys maxValidators :=
  let management := genesis.build maxValidators
  { management
    currentIndex := 0
    palletSessionCurrentIndex := 0
    validatorsAndKeys := (newSessionGenesis cfg management).getD [] }

end PartnerChains.Committee
