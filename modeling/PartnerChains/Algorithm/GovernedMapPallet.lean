import PartnerChains.Algorithm.GovernedMap

/-!
# The governed map pallet and its inherent

The pallet keeps a copy of the map. The inherent data are the changes that bring the copy of
the parent block to the state at the referenced main chain block.
-/

namespace PartnerChains.GovernedMap

/-! ## Bounded keys and values -/

/-- A string whose encoding is bounded by its type. -/
structure BoundedString (bound : ℕ) where
  toString : String
  size_le : toString.utf8ByteSize ≤ bound
  deriving DecidableEq

namespace BoundedString

variable {bound : ℕ}

theorem toString_injective : Function.Injective (@toString bound) := by
  rintro ⟨_, _⟩ ⟨_, _⟩ rfl
  rfl

instance : Ord (BoundedString bound) := ⟨compareOn toString⟩

instance : Std.TransOrd (BoundedString bound) :=
  inferInstanceAs (Std.TransCmp (compareOn toString))

instance : Std.LawfulEqOrd (BoundedString bound) where
  eq_of_compare h := toString_injective (Std.LawfulEqOrd.eq_of_compare h)

def tryFrom (bound : ℕ) (text : String) : Option (BoundedString bound) :=
  if h : text.utf8ByteSize ≤ bound then some ⟨text, h⟩ else none

end BoundedString

/-- A map whose size is bounded by its type. -/
structure BoundedBTreeMap (K V : Type) [Ord K] [Std.TransOrd K] (bound : ℕ) where
  map : Std.ExtTreeMap K V
  size_le : map.size ≤ bound

namespace BoundedBTreeMap

variable {K V : Type} [Ord K] [Std.TransOrd K] {bound : ℕ}

def new : BoundedBTreeMap K V bound := ⟨∅, by simp⟩

def tryInsert (m : BoundedBTreeMap K V bound) (key : K) (value : V) :
    Option (BoundedBTreeMap K V bound) :=
  if h : (m.map.insert key value).size ≤ bound then some ⟨m.map.insert key value, h⟩ else none

end BoundedBTreeMap

/-! ## Storage -/

structure Config where
  maxChanges : UInt32
  maxKeyLength : UInt32
  maxValueLength : UInt32
  mainChainScriptsOrigin : Origin → Bool

namespace Config

variable (cfg : Config)

abbrev MapKey := BoundedString cfg.maxKeyLength.toNat

abbrev MapValue := BoundedVec UInt8 cfg.maxValueLength.toNat

abbrev Changes := BoundedBTreeMap cfg.MapKey (Option cfg.MapValue) cfg.maxChanges.toNat

end Config

variable {cfg : Config}

structure Storage (cfg : Config) where
  initialized : Bool
  lastUpdateBlock : Option ℕ
  mapping : Std.ExtTreeMap cfg.MapKey cfg.MapValue
  mainChainScripts : Option MainChainScriptsV1

def genesisBuild (cfg : Config) (mainChainScripts : Option MainChainScriptsV1) : Storage cfg where
  initialized := false
  lastUpdateBlock := none
  mapping := ∅
  mainChainScripts

def getCurrentState (mapping : Std.ExtTreeMap cfg.MapKey cfg.MapValue) : Mappings :=
  mapping.toList.foldl (fun state entry => state.insert entry.1.toString entry.2.toList) ∅

/-! ## Calls -/

/-- The arguments of one call of the change handler: key, new value and old value. -/
abbrev Notification (cfg : Config) := cfg.MapKey × Option cfg.MapValue × Option cfg.MapValue

/-- The pallet's storage and the calls made to the change handler, oldest first. -/
structure Runtime (cfg : Config) where
  storage : Storage cfg
  notified : List (Notification cfg)

inductive Call (cfg : Config) where
  | registerChanges (changes : cfg.Changes)
  | setMainChainScripts (newMainChainScript : MainChainScriptsV1)

inductive DispatchError where
  | badOrigin
  | inherentCalledTwice
  | mainChainScriptNotSet
  deriving DecidableEq

/-- One entry of the changes is stored and reported. -/
def applyChange (r : Runtime cfg) (change : cfg.MapKey × Option cfg.MapValue) : Runtime cfg :=
  let oldValue := r.storage.mapping[change.1]?
  { storage := { r.storage with mapping := LastWrite.write r.storage.mapping change }
    notified := r.notified ++ [(change.1, change.2, oldValue)] }

def registerChanges (origin : Origin) (currentBlock : ℕ) (changes : cfg.Changes)
    (r : Runtime cfg) : Except DispatchError (Runtime cfg) :=
  if origin ≠ .none then .error .badOrigin
  else if ¬ r.storage.lastUpdateBlock.all (· < currentBlock) then .error .inherentCalledTwice
  else if r.storage.mainChainScripts.isNone then .error .mainChainScriptNotSet
  else
    .ok (changes.map.toList.foldl applyChange
      { r with storage := { r.storage with
        lastUpdateBlock := some currentBlock, initialized := true } })

def setMainChainScripts (origin : Origin) (newMainChainScript : MainChainScriptsV1)
    (r : Runtime cfg) : Except DispatchError (Runtime cfg) :=
  if cfg.mainChainScriptsOrigin origin then
    .ok { r with storage := { r.storage with
      mainChainScripts := some newMainChainScript, initialized := false } }
  else .error .badOrigin

def dispatch (origin : Origin) (currentBlock : ℕ) (call : Call cfg) (r : Runtime cfg) :
    Except DispatchError (Runtime cfg) :=
  match call with
  | .registerChanges changes => registerChanges origin currentBlock changes r
  | .setMainChainScripts newMainChainScript => setMainChainScripts origin newMainChainScript r

/-! ## The inherent -/

abbrev GovernedMapInherentDataV1 := Std.ExtTreeMap String (Option ByteString)

inductive InherentError where
  | inherentMissing
  | inherentNotExpected
  | incorrectInherent
  | keyExceedsBounds (key : String)
  | valueExceedsBounds (key : String) (value : ByteString)
  | tooManyChanges
  deriving DecidableEq

def decodeInherentData (data : InherentSlot GovernedMapInherentDataV1) :
    Except Panic (Option GovernedMapInherentDataV1) :=
  match data with
  | .error _ => .error ⟨"Governed Map inherent data is not encoded correctly"⟩
  | .ok data => .ok data

def boundKey (cfg : Config) (key : String) : Except InherentError cfg.MapKey :=
  (BoundedString.tryFrom cfg.maxKeyLength.toNat key).elim (.error (.keyExceedsBounds key)) .ok

def boundValue (cfg : Config) (key : String) (value : ByteString) :
    Except InherentError cfg.MapValue :=
  (BoundedVec.tryFrom cfg.maxValueLength.toNat value).elim
    (.error (.valueExceedsBounds key value)) .ok

/-- The value is checked before the key. -/
def boundChange (cfg : Config) (change : String × Option ByteString) :
    Except InherentError (cfg.MapKey × Option cfg.MapValue) := do
  let newValue ← match change.2 with
    | some newValue => (boundValue cfg change.1 newValue).map some
    | none => .ok none
  let key ← boundKey cfg change.1
  .ok (key, newValue)

def insertChange (changes : cfg.Changes) (change : cfg.MapKey × Option cfg.MapValue) :
    Except Panic cfg.Changes :=
  (changes.tryInsert change.1 change.2).elim
    (.error ⟨"Number of changes is below maximum"⟩) .ok

def createInherentOrErr (storage : Storage cfg) (data : InherentSlot GovernedMapInherentDataV1) :
    Except Panic (Except InherentError (Option (Call cfg))) := do
  match ← decodeInherentData data with
  | none => .ok (.ok none)
  | some rawChanges =>
      if rawChanges.isEmpty ∧ storage.initialized then .ok (.ok none)
      else if cfg.maxChanges.toNat < rawChanges.size then .ok (.error .tooManyChanges)
      else
        match rawChanges.toList.mapM (boundChange cfg) with
        | .error error => .ok (.error error)
        | .ok changes => do
            let changes ← changes.foldlM insertChange .new
            .ok (.ok (some (.registerChanges changes)))

def createInherent (storage : Storage cfg) (data : InherentSlot GovernedMapInherentDataV1) :
    Except Panic (Option (Call cfg)) := do
  match ← createInherentOrErr storage data with
  | .ok call => .ok call
  | .error _ => .error ⟨"Creating Governed Map inherent failed"⟩

/-! ## The inherent data provider -/

inductive InherentDataProvider where
  | inert
  | activeV1 (data : GovernedMapInherentDataV1)

/-- The runtime interface is read at the parent block. -/
def newV1 (parent : Storage cfg) (mcHash : McBlockHash) (parentMcHash : Option McBlockHash)
    (dataSource : DataSource) : Except SourceError InherentDataProvider :=
  match parent.mainChainScripts with
  | none => .ok .inert
  | some mainChainScript =>
      if parent.initialized then do
        let rawChanges ← dataSource.getMappingChanges parentMcHash mcHash mainChainScript
        .ok (.activeV1 (LastWrite.collect rawChanges))
      else do
        let newState ← dataSource.getStateAtBlock mcHash mainChainScript
        let currentState := getCurrentState parent.mapping
        .ok (.activeV1 (LastWrite.collect
          (removedEntries currentState newState ++ updatedEntries currentState newState)))

def InherentDataProvider.provideInherentData :
    InherentDataProvider → InherentSlot GovernedMapInherentDataV1
  | .inert => .ok none
  | .activeV1 data => .ok (some data)

end PartnerChains.GovernedMap
