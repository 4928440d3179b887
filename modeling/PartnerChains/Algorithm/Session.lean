import PartnerChains.Library.PartitionPoint
import PartnerChains.Algorithm.Domain

/-!
# The session pallet

When the session manager plans a new session, the pallet stores the validators it provides,
adjusts the provider references of their accounts, and passes the keys on to the session
handler.
-/

namespace PartnerChains.Session

abbrev KeyTypeId := Bytes 4

/-! ## Configuration -/

/-- Accounts exist as long as they have a provider. Each call adds or removes one reference. -/
structure FrameSystem (AccountId σ : Type) [DecidableEq AccountId] where
  providers : σ → AccountId → ℕ
  incProviders : AccountId → σ → σ
  decProviders : AccountId → σ → Except Unit σ
  providers_inc : ∀ account s other, providers (incProviders account s) other =
    providers s other + if other = account then 1 else 0
  providers_dec : ∀ account s s', decProviders account s = .ok s' → ∀ other,
    providers s' other = providers s other - if other = account then 1 else 0

structure SessionManager (ValidatorId Keys μ : Type) where
  newSession : UInt32 → μ → Except Panic (Option (List (ValidatorId × Keys)) × μ)
  newSessionGenesis : UInt32 → μ → Except Panic (Option (List (ValidatorId × Keys)) × μ)
  endSession : UInt32 → μ → μ
  startSession : UInt32 → μ → μ

structure SessionHandler (ValidatorId Keys ς : Type) where
  keyTypeIds : List KeyTypeId
  onGenesisSession : List (ValidatorId × Keys) → ς → ς
  onNewSession : Bool → List (ValidatorId × Keys) → List (ValidatorId × Keys) → ς → ς
  onBeforeSessionEnding : ς → ς

/-- A pallet that works with one type of session key. -/
structure OneSessionHandler (ValidatorId Key ς : Type) where
  keyTypeId : KeyTypeId
  onGenesisSession : List (ValidatorId × Key) → ς → ς
  onNewSession : Bool → List (ValidatorId × Key) → List (ValidatorId × Key) → ς → ς
  onBeforeSessionEnding : ς → ς

/-- The keys of one type. Validators without such a key are left out. -/
def ourKeys {ValidatorId Keys Key : Type} (get : Keys → Option Key)
    (validators : List (ValidatorId × Keys)) : List (ValidatorId × Key) :=
  validators.filterMap fun validator => (get validator.2).map fun key => (validator.1, key)

def SessionHandler.pair {ValidatorId Keys Key Key' ς ς' : Type}
    (first : OneSessionHandler ValidatorId Key ς) (get : Keys → Option Key)
    (second : OneSessionHandler ValidatorId Key' ς') (get' : Keys → Option Key') :
    SessionHandler ValidatorId Keys (ς × ς') where
  keyTypeIds := [first.keyTypeId, second.keyTypeId]
  onGenesisSession validators state :=
    (first.onGenesisSession (ourKeys get validators) state.1,
      second.onGenesisSession (ourKeys get' validators) state.2)
  onNewSession changed validators queuedValidators state :=
    (first.onNewSession changed (ourKeys get validators) (ourKeys get queuedValidators) state.1,
      second.onNewSession changed (ourKeys get' validators) (ourKeys get' queuedValidators)
        state.2)
  onBeforeSessionEnding state :=
    (first.onBeforeSessionEnding state.1, second.onBeforeSessionEnding state.2)

structure Config (ValidatorId Keys AccountId σ μ ς : Type) [DecidableEq AccountId] where
  polkadotJsCompat : Bool
  keyIds : List KeyTypeId
  accountOf : ValidatorId → AccountId
  frameSystem : FrameSystem AccountId σ
  manager : SessionManager ValidatorId Keys μ
  handler : SessionHandler ValidatorId Keys ς

/-! ## State -/

structure Storage (ValidatorId Keys : Type) where
  validators : List ValidatorId := []
  validatorsAndKeys : List (ValidatorId × Keys) := []
  currentIndex : UInt32 := 0
  disabledValidators : List UInt32 := []

/-- The storage of the pallet with the states of the system pallet, of the session manager
and of the session handler. -/
structure Runtime (ValidatorId Keys σ μ ς : Type) where
  storage : Storage ValidatorId Keys := {}
  system : σ
  manager : μ
  handler : ς

variable {ValidatorId Keys AccountId σ μ ς : Type}

/-! ## Provider references -/

section Rotation

variable [LinearOrder AccountId] (cfg : Config ValidatorId Keys AccountId σ μ ς)

def accIds (validators : List (ValidatorId × Keys)) : List AccountId :=
  validators.map fun validator => cfg.accountOf validator.1

def incProvider (s : σ) (account : AccountId) : σ :=
  cfg.frameSystem.incProviders account s

def decProvider (s : σ) (account : AccountId) : Except Panic σ :=
  match cfg.frameSystem.decProviders account s with
  | .ok s => .ok s
  | .error _ => .error ⟨"We always match dec_providers with corresponding inc_providers, " ++
      "thus it cannot fail"⟩

/-- Sets of accounts are iterated in their order. -/
def btreeSet (ids : List AccountId) : List AccountId :=
  ids.dedup.insertionSort (· ≤ ·)

def changeAccountProviders (newIds oldIds : List AccountId) (s : σ) : Except Panic σ :=
  let newIds := btreeSet newIds
  let oldIds := btreeSet oldIds
  let toInc := newIds.filter fun account => account ∉ oldIds
  let toDec := oldIds.filter fun account => account ∉ newIds
  toDec.foldlM (decProvider cfg) (toInc.foldl (incProvider cfg) s)

/-- The list is stored before the old and the new accounts are compared. -/
def rotateValidators (newValidators : List (ValidatorId × Keys))
    (r : Runtime ValidatorId Keys σ μ ς) : Except Panic (Runtime ValidatorId Keys σ μ ς) := do
  let storage := { r.storage with validatorsAndKeys := newValidators }
  let storage := if cfg.polkadotJsCompat then
    { storage with validators := newValidators.map Prod.fst } else storage
  let system ← changeAccountProviders cfg (accIds cfg newValidators)
    (accIds cfg storage.validatorsAndKeys) r.system
  .ok { r with storage := { storage with disabledValidators := [] }, system }

/-! ## Sessions -/

/-- The new session has the validators that the manager provides, or those it had. -/
def applyNewSession (newValidators : Option (List (ValidatorId × Keys)))
    (r : Runtime ValidatorId Keys σ μ ς) : Except Panic (Runtime ValidatorId Keys σ μ ς) :=
  match newValidators with
  | some validators => rotateValidators cfg validators r
  | none => .ok r

def rotateSession (r : Runtime ValidatorId Keys σ μ ς) :
    Except Panic (Runtime ValidatorId Keys σ μ ς) := do
  let r := { r with
    handler := cfg.handler.onBeforeSessionEnding r.handler
    manager := cfg.manager.endSession r.storage.currentIndex r.manager }
  let sessionIndex := r.storage.currentIndex + 1
  let (newValidators, manager) ← cfg.manager.newSession sessionIndex r.manager
  let r := { r with manager, storage := { r.storage with currentIndex := sessionIndex } }
  let r ← applyNewSession cfg newValidators r
  .ok { r with
    manager := cfg.manager.startSession sessionIndex r.manager
    handler := cfg.handler.onNewSession newValidators.isSome r.storage.validatorsAndKeys []
      r.handler }

def onInitialize (shouldEndSession : Bool) (r : Runtime ValidatorId Keys σ μ ς) :
    Except Panic (Runtime ValidatorId Keys σ μ ς) :=
  if shouldEndSession then rotateSession cfg r else .ok r

/-! ## Genesis -/

/-- The first position at which handler and keys expect different types of key. -/
def checkKeyTypes : Except Panic Unit :=
  if cfg.handler.keyTypeIds.length ≠ cfg.keyIds.length then
    .error ⟨"Number of keys in session handler and session keys does not match"⟩
  else
    match (cfg.handler.keyTypeIds.zip cfg.keyIds).findIdx? fun pair => pair.1 ≠ pair.2 with
    | some i =>
        .error ⟨s!"Session handler and session key expect different key type at index: {i}"⟩
    | none => .ok ()

def build (initialValidators : List (ValidatorId × Keys)) (r : Runtime ValidatorId Keys σ μ ς) :
    Except Panic (Runtime ValidatorId Keys σ μ ς) := do
  checkKeyTypes cfg
  let (maybeGenesisValidators, manager) ← cfg.manager.newSessionGenesis 0 r.manager
  let validators := maybeGenesisValidators.getD initialValidators
  let r ← rotateValidators cfg validators { r with manager }
  .ok { r with
    handler := cfg.handler.onGenesisSession validators r.handler
    manager := cfg.manager.startSession 0 r.manager }

end Rotation

/-! ## Disabled validators -/

section Disabling

variable (search : PartitionPoint UInt32) (onDisabled : UInt32 → ς → ς)

/-- A sorted vector is searched for an element, or for the place where it belongs. -/
def binarySearch (xs : List UInt32) (x : UInt32) : Except ℕ ℕ :=
  let index := search.find (· < x) xs
  if xs[index]? = some x then .ok index else .error index

/-- The index is compared with the length of the list of validators that is kept for display. -/
def disableIndex (i : UInt32) (r : Runtime ValidatorId Keys σ μ ς) :
    Bool × Runtime ValidatorId Keys σ μ ς :=
  if UInt32.ofNat r.storage.validators.length ≤ i then (false, r)
  else
    match binarySearch search r.storage.disabledValidators i with
    | .error index =>
        (true, { r with
          storage := { r.storage with
            disabledValidators := r.storage.disabledValidators.insertIdx index i }
          handler := onDisabled i r.handler })
    | .ok _ => (false, r)

def disable [DecidableEq ValidatorId] (c : ValidatorId) (r : Runtime ValidatorId Keys σ μ ς) :
    Bool × Runtime ValidatorId Keys σ μ ς :=
  match r.storage.validatorsAndKeys.findIdx? fun validator => validator.1 = c with
  | some i => disableIndex search onDisabled (UInt32.ofNat i) r
  | none => (false, r)

def isDisabled (index : UInt32) (s : Storage ValidatorId Keys) : Bool :=
  (binarySearch search s.disabledValidators index).isOk

end Disabling

end PartnerChains.Session
