import PartnerChains.Library.LruCache
import PartnerChains.Library.Relational
import PartnerChains.Algorithm.RegistrationsQuery

/-!
# The data source of stake delegations

The delegations of each pool are read from the Db-Sync tables and kept in a cache. The query has no
`ORDER BY` clause: the database picks the order of the rows.
-/

namespace PartnerChains.StakeDistributionSource

open Relational

/-! ## Tables -/

/-- Numbers in a column of four bytes with a sign that are not negative. -/
abbrev Word31 := Fin (2 ^ 31)

structure EpochStakeRow where
  addrId : ℕ
  poolId : ℕ
  amount : UInt64
  epochNo : Word31
  deriving DecidableEq

structure StakeAddressRow where
  id : ℕ
  hashRaw : Bytes 29
  scriptHash : Option (Bytes 28)
  deriving DecidableEq

structure PoolHashRow where
  id : ℕ
  hashRaw : MainchainKeyHash
  deriving DecidableEq

structure Database where
  epochStake : List EpochStakeRow
  stakeAddress : List StakeAddressRow
  poolHash : List PoolHashRow

structure StakePoolDelegationOutputRow where
  epochStakeAmount : ℕ
  poolHashRaw : MainchainKeyHash
  stakeAddressHashRaw : Bytes 29
  stakeAddressScriptHash : Option (Bytes 28)
  deriving DecidableEq

/-- The bytes of a number, read as a number with a sign. -/
def encodeInt4 (number : UInt32) : ℤ := number.toBitVec.toInt

/-- How the database orders the rows of a result. -/
abbrev RowOrder := Arrangement fun _ : StakePoolDelegationOutputRow => ()

def getStakePoolDelegationsForPools (db : Database) (epoch : UInt32)
    (stakePoolHashes : List MainchainKeyHash) : List StakePoolDelegationOutputRow := do
  let epochStake ← db.epochStake
  let stakeAddress ← db.stakeAddress.filter fun address => epochStake.addrId = address.id
  let poolHash ← db.poolHash.filter fun pool => epochStake.poolId = pool.id
  if (epochStake.epochNo.val : ℤ) = encodeInt4 epoch ∧ 0 < epochStake.amount ∧
      poolHash.hashRaw ∈ stakePoolHashes then
    [⟨epochStake.amount.toNat, poolHash.hashRaw, stakeAddress.hashRaw, stakeAddress.scriptHash⟩]
  else []

/-! ## Distribution -/

/-- The first byte of a stake address has its kind and its network. -/
def getDelegatorKey (row : StakePoolDelegationOutputRow) : Except String DelegatorKey :=
  match row.stakeAddressHashRaw with
  | ⟨[], infallible⟩ => absurd infallible (by decide)
  | ⟨header :: rest, length⟩ =>
      if header = 0xe0 ∨ header = 0xe1 then
        .ok (.stakeKeyHash ⟨rest, Nat.succ.inj length⟩)
      else if header = 0xf0 ∨ header = 0xf1 then
        match row.stakeAddressScriptHash with
        | some scriptHash => .ok (.scriptKeyHash ⟨rest, Nat.succ.inj length⟩ scriptHash)
        | none => .error "stake_address_script_hash must be present for script keys"
      else .error ("invalid stake address hash: " ++
        String.ofList (row.stakeAddressHashRaw.val.flatMap RegistrationsQuery.hexDigits))

/-- The amount is added to the total of the pool, also when the delegator is there already. -/
def addDelegation (overflowChecks : Bool) (res : StakeDistribution) (poolHash : MainchainKeyHash)
    (delegatorKey : DelegatorKey) (amount : ℕ) : Except Panic StakeDistribution := do
  let pool := (res.get? poolHash).getD {}
  let delegators :=
    if (pool.delegators.get? delegatorKey).isSome then pool.delegators
    else pool.delegators.insert delegatorKey amount
  let totalStake ← Checked.addWith overflowChecks 64 pool.totalStake amount
  .ok (res.insert poolHash { totalStake, delegators })

/-- Rows without a delegator are logged and left out. -/
def addRow (overflowChecks : Bool) (res : StakeDistribution)
    (row : StakePoolDelegationOutputRow) : Except Panic StakeDistribution :=
  match getDelegatorKey row with
  | .ok delegatorKey =>
      addDelegation overflowChecks res row.poolHashRaw delegatorKey row.epochStakeAmount
  | .error _ => .ok res

def rowsToDistribution (overflowChecks : Bool) (rows : List StakePoolDelegationOutputRow) :
    Except Panic StakeDistribution :=
  rows.foldlM (addRow overflowChecks) .empty

/-! ## The cache -/

abbrev Cache (L : Type → Type → Type) := L (UInt32 × MainchainKeyHash) PoolDelegation

/-- What is known after some pools were looked up. -/
structure LookupState (L : Type → Type → Type) where
  poolHashesToQuery : List MainchainKeyHash
  stakeDistribution : StakeDistribution
  cache : Cache L

variable {L : Type → Type → Type} [LruCache L]

def getDistributionForPool (epoch : UInt32) (poolHash : MainchainKeyHash) (cache : Cache L) :
    Option PoolDelegation × Cache L :=
  LruCache.get cache (epoch, poolHash)

def putDistributionForPools (epoch : UInt32) (stakeDistribution : StakeDistribution)
    (cache : Cache L) : Cache L :=
  stakeDistribution.entries.foldl (fun cache (poolHash, poolDelegation) =>
    LruCache.put cache (epoch, poolHash) poolDelegation) cache

def lookupPool (epoch : UInt32) (state : LookupState L) (poolHash : MainchainKeyHash) :
    LookupState L :=
  match getDistributionForPool epoch poolHash state.cache with
  | (some poolDelegation, cache) =>
      { state with
        stakeDistribution := state.stakeDistribution.insert poolHash poolDelegation
        cache }
  | (none, cache) =>
      { state with
        poolHashesToQuery := state.poolHashesToQuery ++ [poolHash]
        cache }

def getStakePoolDelegationDistributionForPools (overflowChecks : Bool) (order : RowOrder)
    (db : Database) (epoch : UInt32) (poolHashes : List MainchainKeyHash) (cache : Cache L) :
    Except Panic (StakeDistribution × Cache L) := do
  let found := poolHashes.foldl (lookupPool epoch) ⟨[], .empty, cache⟩
  let rows := order.arrange (getStakePoolDelegationsForPools db epoch found.poolHashesToQuery)
  let queriedPoolDelegations ← rowsToDistribution overflowChecks rows
  .ok (found.stakeDistribution.append queriedPoolDelegations,
    putDistributionForPools epoch queriedPoolDelegations found.cache)

end PartnerChains.StakeDistributionSource
