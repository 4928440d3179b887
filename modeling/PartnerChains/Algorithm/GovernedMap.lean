import PartnerChains.Library.LastWrite
import PartnerChains.Algorithm.DbSync

/-!
# The governed map

The data sources read the entries of the map from main chain outputs, the inherent data
provider compares them with the state of the parent block, and the pallet stores them.
-/

namespace PartnerChains.GovernedMap

open DbSync Relational

structure MainChainScriptsV1 where
  validatorAddress : MainchainAddress
  assetPolicyId : PolicyId
  deriving DecidableEq

/-- The entries of the map, in the order of their keys. -/
abbrev Mappings := Std.ExtTreeMap String ByteString

/-! ## The uncached data source -/

/-- A call of a data source panics or returns an error. -/
inductive SourceError where
  | panic (panic : Panic)
  | sqlx (error : SqlxError)
  | blockNotFound (hash : McBlockHash)
  | noLatestBlock
  deriving DecidableEq

/-- An output whose datum is not an entry is skipped. -/
def insertEntry (mappings : Mappings) (datum : PlutusData) : Except Panic Mappings := do
  match ← GovernedMapDatum.tryFrom datum with
  | .ok ⟨key, value⟩ => .ok (mappings.insert key value)
  | .error _ => .ok mappings

def getMappingsEntries (order : Arrangement DatumAtRow.orderKey) (db : Database)
    (hash : McBlockHash) (scripts : MainChainScriptsV1) (txInConfig : TxInConfiguration) :
    Except SourceError Mappings := do
  match ← (getBlockByHash db hash).mapError .sqlx with
  | none => .error (.blockNotFound hash)
  | some block => do
      let entries ← (getDatumsAtAddressWithToken order db scripts.validatorAddress block.blockNo
        (Asset.new scripts.assetPolicyId) txInConfig).mapError .sqlx
      (entries.foldlM insertEntry ∅).mapError .panic

def updatedEntries (before after : Mappings) : List (String × Option ByteString) :=
  (after.toList.filter fun entry => before[entry.1]? ≠ some entry.2).map fun entry =>
    (entry.1, some entry.2)

def removedEntries (before after : Mappings) : List (String × Option ByteString) :=
  (before.keys.filter fun key => ¬ after.contains key).map fun key => (key, none)

structure DataSource where
  getStateAtBlock : McBlockHash → MainChainScriptsV1 → Except SourceError Mappings
  getMappingChanges : Option McBlockHash → McBlockHash → MainChainScriptsV1 →
    Except SourceError (List (String × Option ByteString))

def uncachedSource (order : Arrangement DatumAtRow.orderKey) (db : Database)
    (txInConfig : TxInConfiguration) : DataSource where
  getStateAtBlock mcBlock scripts := getMappingsEntries order db mcBlock scripts txInConfig
  getMappingChanges sinceMcBlock upToMcBlock scripts := do
    let currentMappings ← getMappingsEntries order db upToMcBlock scripts txInConfig
    match sinceMcBlock with
    | none => .ok (currentMappings.toList.map fun entry => (entry.1, some entry.2))
    | some sinceMcBlock => do
        let previousMappings ← getMappingsEntries order db sinceMcBlock scripts txInConfig
        .ok (updatedEntries previousMappings currentMappings ++
          removedEntries previousMappings currentMappings)

/-! ## The cached data source -/

structure Change where
  blockNo : ℕ
  key : String
  value : Option ByteString
  deriving DecidableEq

/-- The changes of one query, the blocks of the first and the last of them, and the scripts
they belong to. -/
structure Cache where
  highestBlockNumber : Option ℕ := none
  lowestBlockNumber : Option ℕ := none
  changes : List Change := []
  address : Option MainchainAddress := none
  policyId : Option PolicyId := none
  deriving DecidableEq

def filterChangesInRange (changes : List Change) (sinceBlock : Option ℕ) (upToBlock : ℕ) :
    List (String × Option ByteString) :=
  (changes.filter fun change =>
    change.blockNo ≤ upToBlock ∧ sinceBlock.all (· < change.blockNo)).map fun change =>
      (change.key, change.value)

namespace Cache

def getChangesInRange (cache : Cache) (sinceBlock : Option ℕ) (upToBlock : ℕ) :
    Option (List (String × Option ByteString)) :=
  match cache.highestBlockNumber, cache.lowestBlockNumber with
  | some highestBlockNumber, some lowestBlockNumber =>
      if highestBlockNumber < upToBlock ∨ sinceBlock.any (· < lowestBlockNumber) then none
      else some (filterChangesInRange cache.changes sinceBlock upToBlock)
  | _, _ => none

def update (cache : Cache) (changes : List Change) : Cache :=
  { cache with
    changes
    lowestBlockNumber := some ((changes.map (·.blockNo)).min?.getD 0)
    highestBlockNumber := some ((changes.map (·.blockNo)).max?.getD 0) }

def setMainChainScripts (cache : Cache) (scripts : MainChainScriptsV1) : Cache :=
  if cache.address ≠ some scripts.validatorAddress ∨
      cache.policyId ≠ some scripts.assetPolicyId then
    { changes := []
      highestBlockNumber := none
      lowestBlockNumber := none
      address := some scripts.validatorAddress
      policyId := some scripts.assetPolicyId }
  else cache

end Cache

/-- The block data source that the data sources of a node share. Its own cache holds blocks
of the database. -/
structure BlockDataSource (db : Database) where
  getBlockByHash : McBlockHash → Except SourceError (Option MainchainBlock)
  getLatestBlockInfo : Except SourceError MainchainBlock
  getLatestStableBlockFor : ℕ → Except SourceError (Option MainchainBlock)
  getBlockByHash_eq : ∀ hash, getBlockByHash hash =
    ((DbSync.getBlockByHash db hash).map (Option.map DbSync.Block.toMainchainBlock)).mapError .sqlx

/-- A spent entry is removed, a created one is set. -/
def Change.ofOutput (change : DatumChangeOutput) : Except Panic (Option Change) := do
  match ← GovernedMapDatum.tryFrom change.datum with
  | .error _ => .ok none
  | .ok ⟨key, value⟩ =>
      match change.action with
      | .spend => .ok (some ⟨change.blockNo, key, none⟩)
      | .create => .ok (some ⟨change.blockNo, key, some value⟩)

def getChangesInRangeToCache (order : Arrangement DatumChangeRow.orderKey) (db : Database)
    (txInConfig : TxInConfiguration) (sinceBlock : Option ℕ) (upToBlock : ℕ)
    (scripts : MainChainScriptsV1) : Except SourceError (List Change) := do
  let changes ← (getGovernedMapChanges order db scripts.validatorAddress sinceBlock upToBlock
    (Asset.new scripts.assetPolicyId) txInConfig).mapError .sqlx
  let result ← (changes.mapM Change.ofOutput).mapError .panic
  .ok result.reduceOption

/-- Block numbers have 32 bits. -/
def maxBlockNumber : ℕ := 2 ^ 32 - 1

def maxSearchBlock (cacheSize : UInt16) (latestStableBlock : ℕ) (sinceBlock : Option ℕ)
    (upToBlock : ℕ) : ℕ :=
  min latestStableBlock
    (max upToBlock (min (sinceBlock.getD 0 + cacheSize.toNat) maxBlockNumber))

def sinceBlockNumber (db : Database) :
    Option McBlockHash → Except SourceError (Option ℕ)
  | none => .ok none
  | some hash => do
      match ← (getBlockByHash db hash).mapError .sqlx with
      | none => .error (.blockNotFound hash)
      | some block => .ok (some block.blockNo)

def resolveRange {db : Database} (blocks : BlockDataSource db)
    (sinceMcBlock : Option McBlockHash) (upToMcBlock : McBlockHash) :
    Except SourceError (Option ℕ × ℕ) := do
  let sinceBlock ← sinceBlockNumber db sinceMcBlock
  match ← blocks.getBlockByHash upToMcBlock with
  | none => .error (.blockNotFound upToMcBlock)
  | some upToBlock => .ok (sinceBlock, upToBlock.number)

/-- Without a stable block the requested one is taken. -/
def latestStableBlockNumber {db : Database} (blocks : BlockDataSource db) (upToBlock : ℕ) :
    Except SourceError ℕ := do
  let latestBlock ← blocks.getLatestBlockInfo
  let latestStableBlock ← blocks.getLatestStableBlockFor latestBlock.timestamp
  .ok ((latestStableBlock.map (·.number)).getD upToBlock)

/-- What is fetched when the cache does not have the range: changes up to the cache size
ahead, but not beyond the latest stable block. -/
def fetchChanges (cacheSize : UInt16) (order : Arrangement DatumChangeRow.orderKey)
    {db : Database} (txInConfig : TxInConfiguration) (blocks : BlockDataSource db)
    (sinceBlock : Option ℕ) (upToBlock : ℕ) (scripts : MainChainScriptsV1) :
    Except SourceError (List Change) := do
  let latestStableBlock ← latestStableBlockNumber blocks upToBlock
  getChangesInRangeToCache order db txInConfig sinceBlock
    (maxSearchBlock cacheSize latestStableBlock sinceBlock upToBlock) scripts

/-- The cache is changed even by a request that fails. -/
def getMappingChangesCached (cacheSize : UInt16) (order : Arrangement DatumChangeRow.orderKey)
    {db : Database} (txInConfig : TxInConfiguration) (blocks : BlockDataSource db)
    (sinceMcBlock : Option McBlockHash) (upToMcBlock : McBlockHash)
    (scripts : MainChainScriptsV1) (cache : Cache) :
    Except SourceError (List (String × Option ByteString)) × Cache :=
  let cache := cache.setMainChainScripts scripts
  match resolveRange blocks sinceMcBlock upToMcBlock with
  | .error error => (.error error, cache)
  | .ok (sinceBlock, upToBlock) =>
      match cache.getChangesInRange sinceBlock upToBlock with
      | some cachedChanges => (.ok cachedChanges, cache)
      | none =>
          match fetchChanges cacheSize order txInConfig blocks sinceBlock upToBlock scripts with
          | .error error => (.error error, cache)
          | .ok changes =>
              (.ok (filterChangesInRange changes sinceBlock upToBlock), cache.update changes)

end PartnerChains.GovernedMap
