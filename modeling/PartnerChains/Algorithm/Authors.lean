import PartnerChains.Algorithm.Committee
import PartnerChains.Algorithm.Session

/-!
# Committee members as block authors

The runtime gives the session pallet the committee pallet's session manager, and passes the
session keys to Aura and Grandpa. Aura expects the author of a slot from the keys it was
given, the block production log asks the committee pallet.
-/

namespace PartnerChains.Authors

open Committee (CommitteeInfo validatorOfMember)

variable {Member AccountId AuraId GrandpaId Inputs σ ςA ςG : Type} {maxValidators : ℕ}

/-! ## Session keys -/

structure SessionKeys (AuraId GrandpaId : Type) where
  aura : AuraId
  grandpa : GrandpaId
  deriving DecidableEq

/-- Aura keeps the keys that it gets in a new session, unless there are none. -/
structure Aura (AccountId AuraId ςA : Type) extends
    Session.OneSessionHandler AccountId AuraId ςA where
  authorities : ςA → List AuraId
  keyTypeId_eq : keyTypeId = auraKeyTypeId
  authorities_genesis : ∀ validators state,
    authorities (onGenesisSession validators state) = validators.map Prod.snd
  authorities_new : ∀ validators queued state, validators ≠ [] →
    authorities (onNewSession true validators queued state) = validators.map Prod.snd

/-- The key that has to seal a slot. -/
def slotAuthor (authorities : List AuraId) (slot : UInt64) : Option AuraId :=
  if authorities.isEmpty then none else authorities[slot.toNat % authorities.length]?

/-! ## The session manager -/

/-- What the session manager writes. -/
structure ManagerState (Member : Type) (maxValidators : ℕ) where
  management : Committee.Storage Member maxValidators
  palletSessionCurrentIndex : UInt32

abbrev CommitteeConfig (Member AccountId AuraId GrandpaId Inputs : Type) (maxValidators : ℕ) :=
  Committee.Config Member AccountId (SessionKeys AuraId GrandpaId) Inputs maxValidators

def sessionManager
    (cfg : CommitteeConfig Member AccountId AuraId GrandpaId Inputs maxValidators) :
    Session.SessionManager AccountId (SessionKeys AuraId GrandpaId)
      (ManagerState Member maxValidators) where
  newSession newIndex m := do
    let (validators, r) ← Committee.newSession cfg newIndex
      { management := m.management, currentIndex := newIndex,
        palletSessionCurrentIndex := m.palletSessionCurrentIndex, validatorsAndKeys := [] }
    .ok (validators, ⟨r.management, r.palletSessionCurrentIndex⟩)
  newSessionGenesis _ m := .ok (Committee.newSessionGenesis cfg m.management, m)
  endSession _ m := m
  startSession _ m := m

/-! ## The runtime -/

/-- The pallets around the session pallet. -/
structure Config (Member AccountId AuraId GrandpaId Inputs σ ςA ςG : Type) (maxValidators : ℕ)
    [DecidableEq AccountId] where
  committee : CommitteeConfig Member AccountId AuraId GrandpaId Inputs maxValidators
  frameSystem : Session.FrameSystem AccountId σ
  aura : Aura AccountId AuraId ςA
  grandpa : Session.OneSessionHandler AccountId GrandpaId ςG
  polkadotJsCompat : Bool

def sessionConfig [DecidableEq AccountId]
    (cfg : Config Member AccountId AuraId GrandpaId Inputs σ ςA ςG maxValidators) :
    Session.Config AccountId (SessionKeys AuraId GrandpaId) AccountId σ
      (ManagerState Member maxValidators) (ςA × ςG) where
  polkadotJsCompat := cfg.polkadotJsCompat
  keyIds := [auraKeyTypeId, grandpaKeyTypeId]
  accountOf := id
  frameSystem := cfg.frameSystem
  manager := sessionManager cfg.committee
  handler := .pair cfg.aura.toOneSessionHandler (fun keys => some keys.aura) cfg.grandpa
    fun keys => some keys.grandpa

abbrev Runtime (Member AccountId AuraId GrandpaId σ ςA ςG : Type) (maxValidators : ℕ) :=
  Session.Runtime AccountId (SessionKeys AuraId GrandpaId) σ
    (ManagerState Member maxValidators) (ςA × ςG)

/-- Blocks are initialized by the committee pallet and by the session pallet. -/
def initializeBlock [LinearOrder AccountId]
    (cfg : Config Member AccountId AuraId GrandpaId Inputs σ ςA ςG maxValidators) (blockNr : ℕ)
    (currentEpochNumber : ScEpochNumber)
    (r : Runtime Member AccountId AuraId GrandpaId σ ςA ςG maxValidators) :
    Except Panic (Runtime Member AccountId AuraId GrandpaId σ ςA ςG maxValidators) :=
  let management := Committee.onInitialize blockNr currentEpochNumber r.manager.management
  Session.onInitialize (sessionConfig cfg)
    (Committee.shouldEndSession cfg.committee currentEpochNumber management)
    { r with manager := { r.manager with management } }

/-- The slot is cast to an index of `usizeBits` bits, which are 32 in a Wasm runtime. -/
def getAuthor (usizeBits : ℕ) (s : Committee.Storage Member maxValidators) (slot : UInt64) :
    Option Member :=
  Committee.getCurrentAuthorityRoundRobin s (slot.toNat % 2 ^ usizeBits)

end PartnerChains.Authors
