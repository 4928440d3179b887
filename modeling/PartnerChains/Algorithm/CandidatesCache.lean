import PartnerChains.Library.LruCache
import PartnerChains.Algorithm.AriadneInherent

/-!
# The caching data source of committee selection

The Db-Sync data source reads the data of two epochs before the requested one. In front of it,
answers about epochs that can no longer be rolled back are cached. The latest such epoch is
derived from the block that is the security parameter below the tip, and it is remembered.
-/

namespace PartnerChains.Candidates

open DbSync AuthoritySelection

inductive DataSourceError (ε : Type) where
  | badRequest (message : String)
  | sqlx (error : SqlxError)
  | integerOutOfRange
  | query (error : ε)
  deriving DecidableEq

/-! ## The Db-Sync data source -/

/-- What the Db-Sync data source reads from the database for an epoch of data. -/
structure EpochQueries (ε : Type) where
  ariadneParameters : Database → McEpochNumber → PolicyId → PolicyId → Except ε AriadneParameters
  candidates : Database → McEpochNumber → MainchainAddress →
    Except ε (List CandidateRegistrations)

def dataMcEpochOffset : ℕ := 2

def offsetDataEpoch (epoch : McEpochNumber) : Except ℕ McEpochNumber :=
  if dataMcEpochOffset ≤ epoch then .ok (epoch - dataMcEpochOffset) else .error dataMcEpochOffset

section Source

variable {ε : Type}

def getEpochOfDataStorage (epochOfDataUsage : McEpochNumber) :
    Except (DataSourceError ε) McEpochNumber :=
  (offsetDataEpoch epochOfDataUsage).mapError fun offset => .badRequest
    s!"Minimum supported epoch of data usage is {offset}, but {epochOfDataUsage} was provided"

def dataEpoch (forEpoch : McEpochNumber) : Except (DataSourceError ε) McEpochNumber :=
  getEpochOfDataStorage forEpoch

namespace EpochQueries

variable (inner : EpochQueries ε) (db : Database)

def getAriadneParameters (epoch : McEpochNumber)
    (dParameterPolicy permissionedCandidatePolicy : PolicyId) :
    Except (DataSourceError ε) AriadneParameters := do
  let epoch ← getEpochOfDataStorage epoch
  (inner.ariadneParameters db epoch dParameterPolicy permissionedCandidatePolicy).mapError .query

def getCandidates (epoch : McEpochNumber) (committeeCandidateAddress : MainchainAddress) :
    Except (DataSourceError ε) (List CandidateRegistrations) := do
  let epoch ← getEpochOfDataStorage epoch
  (inner.candidates db epoch committeeCandidateAddress).mapError .query

end EpochQueries

/-! ## The latest stable epoch -/

/-- Block numbers are bound to a query as signed numbers of 32 bits. -/
def bindBlockNumber (number : UInt32) : ℤ := number.toBitVec.toInt

/-- The difference of two numbers of 32 bits, which fails the query when it has more bits. -/
def int4Sub (a b : ℤ) : Except (DataSourceError ε) ℤ :=
  if -2 ^ 31 ≤ a - b ∧ a - b < 2 ^ 31 then .ok (a - b) else .error .integerOutOfRange

/-- Each numbered block with the block that is the security parameter below it. -/
def stableBlockRows (db : Database) (securityParameter : UInt32) :
    Except (DataSourceError ε) (List (ℕ × BlockRow)) := do
  let differences ← (numberedBlocks db).mapM fun block => do
    let difference ← int4Sub block.1 (bindBlockNumber securityParameter)
    .ok (block.1, difference)
  .ok (differences.flatMap fun block =>
    ((numberedBlocks db).filter fun stable => decide (block.2 = stable.1)).map fun stable =>
      (block.1, stable.2))

/-- The column `epoch_no - 1`, which is read as an unsigned number. -/
def decodePreviousEpoch : Option ℕ → Except SqlxError McEpochNumber
  | some (epoch + 1) => .ok epoch
  | _ => .error (.columnDecode "epoch_no")

def getLatestStableEpoch (order : BlockOrder) (db : Database) (securityParameter : UInt32) :
    Except (DataSourceError ε) (Option McEpochNumber) := do
  let rows ← stableBlockRows db securityParameter
  match (order.arrange rows).getLast? with
  | none => .ok none
  | some (_, stable) => do
      let epoch ← (decodePreviousEpoch stable.epochNo).mapError .sqlx
      .ok (some epoch)

/-! ## The caching data source -/

abbrev AriadneParametersCacheKey := McEpochNumber × PolicyId × PolicyId
abbrev CandidatesCacheKey := McEpochNumber × String

/-- What the caching data source keeps between calls. -/
structure Caches (L : Type → Type → Type) where
  getAriadneParametersForEpochCache : L AriadneParametersCacheKey AriadneParameters
  getCandidatesForEpochCache : L CandidatesCacheKey (List CandidateRegistrations)
  highestSeenStableEpoch : Option McEpochNumber

variable {L : Type → Type → Type} [LruCache L]

def Caches.new (size : ℕ) (positive : 0 < size) : Caches L :=
  ⟨LruCache.new size positive, LruCache.new size positive, none⟩

/-- Failed answers are not cached. -/
def withCaching {κ ν : Type} [DecidableEq κ] (cache : L κ ν) (key : κ)
    (query : Except (DataSourceError ε) ν) : Except (DataSourceError ε) ν × L κ ν :=
  match LruCache.get cache key with
  | (some response, cache) => (.ok response, cache)
  | (none, cache) =>
      match query with
      | .error error => (.error error, cache)
      | .ok response => (.ok response, LruCache.put cache key response)

/-- Requests for which caching cannot be used are answered by the inner data source. -/
def answer {α : Type} (canUseCaching : Except (DataSourceError ε) Bool × Caches L)
    (cached : Caches L → Except (DataSourceError ε) α × Caches L)
    (inner : Except (DataSourceError ε) α) : Except (DataSourceError ε) α × Caches L :=
  match canUseCaching with
  | (.error error, caches) => (.error error, caches)
  | (.ok true, caches) => cached caches
  | (.ok false, caches) => (inner, caches)

/-- The configuration of the caching data source. -/
structure CandidateDataSourceCached (ε : Type) where
  inner : EpochQueries ε
  order : BlockOrder
  securityParameter : UInt32

namespace CandidateDataSourceCached

variable (source : CandidateDataSourceCached ε) (db : Database)

def getCandidatesWithCaching (epoch : McEpochNumber)
    (committeeCandidateAddress : MainchainAddress) (caches : Caches L) :
    Except (DataSourceError ε) (List CandidateRegistrations) × Caches L :=
  let (answer, cache) := withCaching caches.getCandidatesForEpochCache
    (epoch, committeeCandidateAddress)
    (source.inner.getCandidates db epoch committeeCandidateAddress)
  (answer, { caches with getCandidatesForEpochCache := cache })

def getAriadneParametersWithCaching (epoch : McEpochNumber)
    (dParameterValidator permissionedCandidatesValidator : PolicyId) (caches : Caches L) :
    Except (DataSourceError ε) AriadneParameters × Caches L :=
  let (answer, cache) := withCaching caches.getAriadneParametersForEpochCache
    (epoch, dParameterValidator, permissionedCandidatesValidator)
    (source.inner.getAriadneParameters db epoch dParameterValidator
      permissionedCandidatesValidator)
  (answer, { caches with getAriadneParametersForEpochCache := cache })

/-- The remembered epoch is replaced whenever it does not decide the request. -/
def canUseCachingForRequest (requestEpoch : McEpochNumber) (caches : Caches L) :
    Except (DataSourceError ε) Bool × Caches L :=
  match dataEpoch requestEpoch with
  | .error error => (.error error, caches)
  | .ok dataEpoch =>
      if caches.highestSeenStableEpoch.any fun stableEpoch => dataEpoch ≤ stableEpoch then
        (.ok true, caches)
      else
        match getLatestStableEpoch source.order db source.securityParameter with
        | .error error => (.error error, caches)
        | .ok (some stableEpoch) =>
            (.ok (dataEpoch ≤ stableEpoch),
              { caches with highestSeenStableEpoch := some stableEpoch })
        | .ok none => (.ok false, caches)

def getAriadneParameters (epoch : McEpochNumber)
    (dParameterPolicy permissionedCandidatesPolicy : PolicyId) (caches : Caches L) :
    Except (DataSourceError ε) AriadneParameters × Caches L :=
  answer (source.canUseCachingForRequest db epoch caches)
    (source.getAriadneParametersWithCaching db epoch dParameterPolicy
      permissionedCandidatesPolicy)
    (source.inner.getAriadneParameters db epoch dParameterPolicy permissionedCandidatesPolicy)

def getCandidates (epoch : McEpochNumber) (committeeCandidateAddress : MainchainAddress)
    (caches : Caches L) : Except (DataSourceError ε) (List CandidateRegistrations) × Caches L :=
  answer (source.canUseCachingForRequest db epoch caches)
    (source.getCandidatesWithCaching db epoch committeeCandidateAddress)
    (source.inner.getCandidates db epoch committeeCandidateAddress)

end CandidateDataSourceCached

end Source

end PartnerChains.Candidates
