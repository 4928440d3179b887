import PartnerChains.Library.Transition
import PartnerChains.Algorithm.StakeDistribution

/-!
# Sequences of queries for stake delegations

The tables do not change. What a query has to return is stated on the delegations in them, without
the cache.
-/

namespace PartnerChains.StakeDistributionSource

/-! ## Delegations -/

/-- Stake that an address delegates to a pool in an epoch. -/
structure Delegation where
  epoch : Word31
  row : StakePoolDelegationOutputRow
  deriving DecidableEq

/-- The delegations of all epochs to all pools. -/
def delegations (db : Database) : List Delegation := do
  let epochStake ← db.epochStake
  let stakeAddress ← db.stakeAddress.filter fun address => epochStake.addrId = address.id
  let poolHash ← db.poolHash.filter fun pool => epochStake.poolId = pool.id
  if 0 < epochStake.amount then
    [⟨epochStake.epochNo, epochStake.amount.toNat, poolHash.hashRaw, stakeAddress.hashRaw,
      stakeAddress.scriptHash⟩]
  else []

def Delegation.IsOf (epoch : UInt32) (pool : MainchainKeyHash) (delegation : Delegation) : Prop :=
  delegation.epoch.val = epoch.toNat ∧ delegation.row.poolHashRaw = pool

instance (epoch : UInt32) (pool : MainchainKeyHash) (delegation : Delegation) :
    Decidable (delegation.IsOf epoch pool) :=
  inferInstanceAs (Decidable (_ ∧ _))

/-- The kind of an address and its network. -/
def Delegation.header (delegation : Delegation) : UInt8 :=
  delegation.row.stakeAddressHashRaw.val.headD 0

/-- An address delegates to a pool once in an epoch, all addresses are of one network, and the
stake of a pool has 64 bits. -/
structure Proper (db : Database) : Prop where
  distinct : ((delegations db).map fun delegation => (delegation.epoch,
    delegation.row.poolHashRaw, delegation.row.stakeAddressHashRaw)).Nodup
  network : ∃ network, ∀ delegation ∈ delegations db, delegation.header &&& 0x0f = network
  sum_lt : ∀ epoch pool, (((delegations db).filter fun delegation =>
    delegation.IsOf epoch pool).map fun delegation =>
      delegation.row.epochStakeAmount).sum < 2 ^ 64

/-- A delegator that can be read delegates an amount to a pool in an epoch. -/
def Delegates (db : Database) (epoch : UInt32) (pool : MainchainKeyHash) (key : DelegatorKey)
    (amount : ℕ) : Prop :=
  ∃ delegation ∈ delegations db, delegation.IsOf epoch pool ∧
    getDelegatorKey delegation.row = .ok key ∧ delegation.row.epochStakeAmount = amount

/-- All delegators of a pool with their amounts, and the sum of these amounts. -/
structure Exact (db : Database) (epoch : UInt32) (pool : MainchainKeyHash)
    (delegation : PoolDelegation) : Prop where
  delegators : ∀ key amount, delegation.delegators.get? key = some amount ↔
    Delegates db epoch pool key amount
  total : delegation.totalStake = (delegation.delegators.entries.map Prod.snd).sum

/-- The pools that were asked for and have a delegator, each with exact data. -/
structure ExactFor (db : Database) (epoch : UInt32) (pools : List MainchainKeyHash)
    (distribution : StakeDistribution) : Prop where
  pools : ∀ pool, (distribution.get? pool).isSome ↔
    pool ∈ pools ∧ ∃ key amount, Delegates db epoch pool key amount
  exact : ∀ pool delegation, distribution.get? pool = some delegation →
    Exact db epoch pool delegation

/-! ## Runs -/

structure Event where
  epoch : UInt32
  poolHashes : List MainchainKeyHash
  result : StakeDistribution

/-- The cache starts empty, and each query is answered with rows in any order. -/
def system {L : Type → Type → Type} [LruCache L] (overflowChecks : Bool) (db : Database)
    (cacheSize : ℕ) (positive : 0 < cacheSize) : System (Cache L) Event where
  Init cache := cache = LruCache.new cacheSize positive
  Step cache event next := ∃ order, getStakePoolDelegationDistributionForPools overflowChecks
    order db event.epoch event.poolHashes cache = .ok (event.result, next)

end PartnerChains.StakeDistributionSource
