import PartnerChains.Library.Transition
import PartnerChains.Algorithm.Session

/-!
# Runs of the session pallet

After the genesis build, sessions are rotated. In between, the rest of the runtime plans new
sessions, and it adds and removes provider references of its own.
-/

namespace PartnerChains.Session

variable {ValidatorId Keys AccountId σ μ ς : Type} [LinearOrder AccountId]

/-- The runtime with the number of provider references that come from elsewhere. -/
structure Tracked (ValidatorId Keys AccountId σ μ ς : Type) where
  runtime : Runtime ValidatorId Keys σ μ ς
  elsewhere : AccountId → ℕ

inductive Event (AccountId : Type) where
  | rotated
  | planned
  | provided (account : AccountId)
  | released (account : AccountId)

inductive Step (cfg : Config ValidatorId Keys AccountId σ μ ς) :
    Tracked ValidatorId Keys AccountId σ μ ς → Event AccountId →
      Tracked ValidatorId Keys AccountId σ μ ς → Prop
  | rotate {s : Tracked ValidatorId Keys AccountId σ μ ς}
      {runtime : Runtime ValidatorId Keys σ μ ς} :
      rotateSession cfg s.runtime = .ok runtime → Step cfg s .rotated { s with runtime }
  | plan {s : Tracked ValidatorId Keys AccountId σ μ ς} (manager : μ) (handler : ς) :
      Step cfg s .planned { s with runtime := { s.runtime with manager, handler } }
  | provide {s : Tracked ValidatorId Keys AccountId σ μ ς} (account : AccountId) :
      Step cfg s (.provided account)
        ⟨{ s.runtime with system := cfg.frameSystem.incProviders account s.runtime.system },
          Function.update s.elsewhere account (s.elsewhere account + 1)⟩
  | release {s : Tracked ValidatorId Keys AccountId σ μ ς} {account : AccountId} {system : σ} :
      0 < s.elsewhere account →
      cfg.frameSystem.decProviders account s.runtime.system = .ok system →
      Step cfg s (.released account)
        ⟨{ s.runtime with system },
          Function.update s.elsewhere account (s.elsewhere account - 1)⟩

/-- A run starts with a genesis build, before which all references come from elsewhere. -/
def system (cfg : Config ValidatorId Keys AccountId σ μ ς) :
    System (Tracked ValidatorId Keys AccountId σ μ ς) (Event AccountId) where
  Init s := ∃ initialValidators before, build cfg initialValidators before = .ok s.runtime ∧
    s.elsewhere = cfg.frameSystem.providers before.system
  Step := Step cfg

/-- Each account has one reference besides those from elsewhere when it belongs to a current
validator, and none otherwise. -/
structure ProviderLaw (cfg : Config ValidatorId Keys AccountId σ μ ς)
    (s : Tracked ValidatorId Keys AccountId σ μ ς) : Prop where
  validator : ∀ account ∈ accIds cfg s.runtime.storage.validatorsAndKeys,
    cfg.frameSystem.providers s.runtime.system account = s.elsewhere account + 1
  other : ∀ account ∉ accIds cfg s.runtime.storage.validatorsAndKeys,
    cfg.frameSystem.providers s.runtime.system account = s.elsewhere account

/-- No rotation fails to remove a reference. -/
def ReleasesSucceed (cfg : Config ValidatorId Keys AccountId σ μ ς)
    (s : Tracked ValidatorId Keys AccountId σ μ ς) : Prop :=
  ∀ validators, ∃ r, rotateValidators cfg validators s.runtime = .ok r

/-! ## Runs with disabled validators -/

inductive DisablingEvent (ValidatorId Keys : Type) where
  | rotated (newValidators : Option (List (ValidatorId × Keys)))
  | planned
  | disabled (validator : ValidatorId)
  | disabledIndex (index : UInt32)

/-- A list of validators can be stored. -/
def Storable (validators : List (ValidatorId × Keys)) : Prop := validators.length < 2 ^ 32

inductive DisablingStep [DecidableEq ValidatorId] (cfg : Config ValidatorId Keys AccountId σ μ ς)
    (search : PartitionPoint UInt32) (onDisabled : UInt32 → ς → ς) :
    Runtime ValidatorId Keys σ μ ς → DisablingEvent ValidatorId Keys →
      Runtime ValidatorId Keys σ μ ς → Prop
  | rotate {r r' : Runtime ValidatorId Keys σ μ ς}
      {newValidators : Option (List (ValidatorId × Keys))} {manager : μ} :
      cfg.manager.newSession (r.storage.currentIndex + 1)
        (cfg.manager.endSession r.storage.currentIndex r.manager) = .ok (newValidators, manager) →
      (∀ validators ∈ newValidators, Storable validators) → rotateSession cfg r = .ok r' →
      DisablingStep cfg search onDisabled r (.rotated newValidators) r'
  | plan {r : Runtime ValidatorId Keys σ μ ς} (manager : μ) (handler : ς) :
      DisablingStep cfg search onDisabled r .planned { r with manager, handler }
  | disable {r : Runtime ValidatorId Keys σ μ ς} (c : ValidatorId) :
      DisablingStep cfg search onDisabled r (.disabled c) (disable search onDisabled c r).2
  | disableIndex {r : Runtime ValidatorId Keys σ μ ς} (i : UInt32) :
      DisablingStep cfg search onDisabled r (.disabledIndex i)
        (disableIndex search onDisabled i r).2

/-- A run starts with a genesis build on empty storage. -/
def disablingSystem [DecidableEq ValidatorId] (cfg : Config ValidatorId Keys AccountId σ μ ς)
    (search : PartitionPoint UInt32) (onDisabled : UInt32 → ς → ς) :
    System (Runtime ValidatorId Keys σ μ ς) (DisablingEvent ValidatorId Keys) where
  Init r := ∃ initialValidators before, before.storage = {} ∧
    build cfg initialValidators before = .ok r ∧ Storable r.storage.validatorsAndKeys
  Step := DisablingStep cfg search onDisabled

/-- The last thing that happened was the genesis build or a rotation to a list of validators. -/
def JustRotated (trace : List (DisablingEvent ValidatorId Keys)) : Prop :=
  trace = [] ∨ ∃ validators, trace.getLast? = some (.rotated (some validators))

/-- What should hold of the disabled list in every state of a run. -/
structure DisabledLaw (trace : List (DisablingEvent ValidatorId Keys))
    (s : Storage ValidatorId Keys) : Prop where
  increasing : s.disabledValidators.Pairwise (· < ·)
  below : ∀ i ∈ s.disabledValidators, i.toNat < s.validatorsAndKeys.length
  empty : JustRotated trace → s.disabledValidators = []

/-- A validator sits at an index. -/
def SitsAt (s : Storage ValidatorId Keys) (c : ValidatorId) (index : UInt32) : Prop :=
  (s.validatorsAndKeys.map Prod.fst)[index.toNat]? = some c

end PartnerChains.Session
