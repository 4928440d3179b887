import PartnerChains.Library.Interleaving
import PartnerChains.Algorithm.GovernedMap

/-!
# Calls of the cached governed map

Calls are made one after the other, or they overlap. A call that overlaps with others lets
them run each time it waits for the lock of the cache or for the database.
-/

namespace PartnerChains.GovernedMap

open DbSync Relational

variable {db : Database}

/-! ## Calls in sequence -/

/-- A request to the cached data source, with what the block data source knows at its time. -/
structure CachedCall (db : Database) where
  order : Arrangement DatumChangeRow.orderKey
  blocks : BlockDataSource db
  sinceMcBlock : Option McBlockHash
  upToMcBlock : McBlockHash
  scripts : MainChainScriptsV1

def CachedCall.execute (cacheSize : UInt16) (cfg : TxInConfiguration) (call : CachedCall db)
    (cache : Cache) : Except SourceError (List (String × Option ByteString)) × Cache :=
  getMappingChangesCached cacheSize call.order cfg call.blocks call.sinceMcBlock
    call.upToMcBlock call.scripts cache

/-- A call of a sequence, with the cache that it finds. -/
structure Served (db : Database) where
  call : CachedCall db
  cache : Cache
  result : Except SourceError (List (String × Option ByteString))

/-- The data source answers one call after the other. -/
def serve (cacheSize : UInt16) (cfg : TxInConfiguration) :
    Cache → List (CachedCall db) → List (Served db)
  | _, [] => []
  | cache, call :: calls =>
      ⟨call, cache, (call.execute cacheSize cfg cache).1⟩ ::
        serve cacheSize cfg (call.execute cacheSize cfg cache).2 calls

/-! ## Calls that overlap -/

/-- How far a call has come. -/
inductive Phase where
  | idle
  | begun
  | ranged (since : Option ℕ) (upTo : ℕ)
  | missed (since : Option ℕ) (upTo : ℕ)
  | fetched (since : Option ℕ) (upTo : ℕ) (changes : List Change)
  | done (result : Except SourceError (List (String × Option ByteString)))

namespace Phase

/-- The call has recorded its scripts and has not returned. -/
def InFlight : Phase → Prop
  | .idle | .done _ => False
  | _ => True

def orFail {α : Type} (next : α → Phase) : Except SourceError α → Phase
  | .ok a => next a
  | .error error => .done (.error error)

end Phase

/-- What a call does until it next waits for the lock or for the database. -/
def CachedCall.advance (cacheSize : UInt16) (cfg : TxInConfiguration) (call : CachedCall db) :
    Phase → Cache → Phase × Cache
  | .idle, cache => (.begun, cache.setMainChainScripts call.scripts)
  | .begun, cache =>
      (.orFail (fun (since, upTo) => .ranged since upTo)
        (resolveRange call.blocks call.sinceMcBlock call.upToMcBlock), cache)
  | .ranged since upTo, cache =>
      match cache.getChangesInRange since upTo with
      | some changes => (.done (.ok changes), cache)
      | none => (.missed since upTo, cache)
  | .missed since upTo, cache =>
      (.orFail (.fetched since upTo)
        (fetchChanges cacheSize call.order cfg call.blocks since upTo call.scripts), cache)
  | .fetched since upTo changes, cache =>
      (.done (.ok (filterChangesInRange changes since upTo)), cache.update changes)
  | .done result, cache => (.done result, cache)

/-- Any number of calls, each with its own arguments. -/
def cachedCalls {ι : Type} (cacheSize : UInt16) (cfg : TxInConfiguration)
    (calls : ι → CachedCall db) : Threads ι Phase Cache where
  start _ := .idle
  advance i := (calls i).advance cacheSize cfg

/-- A call does not begin while one with other scripts is in flight. -/
def ScriptsAgree {ι : Type} (calls : ι → CachedCall db) (c : Threads.Configuration ι Phase Cache)
    (i : ι) : Prop :=
  c.threads i = .idle → ∀ j, (c.threads j).InFlight → (calls j).scripts = (calls i).scripts

end PartnerChains.GovernedMap
