import PartnerChains.Library.Transition
import PartnerChains.Algorithm.BlockSource

/-!
# The block data source over a growing database

Blocks are numbered consecutively and their times do not decrease. Between two calls the
database may have received more blocks; each call may change the cache.
-/

namespace PartnerChains.BlockSource

open DbSync

/-- The block table of a main chain history. -/
structure BlockTable (db : Database) : Prop where
  hash : ∀ a ∈ db.block, ∀ b ∈ db.block, a.hash = b.hash → a = b
  number : ∀ a ∈ db.block, ∀ b ∈ db.block, ∀ number,
    a.blockNo = some number → b.blockNo = some number → a = b
  consecutive : ∀ a ∈ db.block, ∀ b ∈ db.block, ∀ first last,
    a.blockNo = some first → b.blockNo = some last → ∀ number, first ≤ number → number ≤ last →
      ∃ row ∈ db.block, row.blockNo = some number
  time : ∀ a ∈ db.block, ∀ b ∈ db.block, ∀ first last,
    a.blockNo = some first → b.blockNo = some last → first ≤ last → a.time ≤ b.time
  dated : ∀ row ∈ db.block, ∀ number, row.blockNo = some number →
    row.epochNo.isSome ∧ row.slotNo.isSome

structure State where
  db : Database
  cache : BlocksCache

inductive Event where
  | extended
  | verified (hash : McBlockHash) (referenceTimestamp : UInt64)
      (answer : Except Error (Option MainchainBlock))

inductive Step (order : BlockOrder) (cfg : Config) : State → Event → State → Prop
  | extend {s : State} {db : Database} : BlockTable db → s.db.block ⊆ db.block →
      Step order cfg s .extended { s with db }
  | verify {s : State} (hash : McBlockHash) (referenceTimestamp : UInt64) :
      Step order cfg s
        (.verified hash referenceTimestamp
          (getStableBlockFor order cfg s.db hash referenceTimestamp s.cache).1)
        { s with cache := (getStableBlockFor order cfg s.db hash referenceTimestamp s.cache).2 }

def system (order : BlockOrder) (cfg : Config) : System State Event where
  Init s := BlockTable s.db ∧ s.cache = {}
  Step := Step order cfg

/-! ## Calls of both kinds -/

/-- Looking up a block by its hash uses the cache of verified blocks and leaves it as it is. -/
inductive CallEvent where
  | source (event : Event)
  | lookedUp (hash : McBlockHash) (answer : Except Error (Option MainchainBlock))

inductive CallStep (order : BlockOrder) (cfg : Config) : State → CallEvent → State → Prop
  | source {s t : State} {event : Event} : Step order cfg s event t →
      CallStep order cfg s (.source event) t
  | lookUp {s : State} (hash : McBlockHash) :
      CallStep order cfg s (.lookedUp hash (getBlockByHash s.db hash s.cache)) s

def callSystem (order : BlockOrder) (cfg : Config) : System State CallEvent where
  Init s := BlockTable s.db ∧ s.cache = {}
  Step := CallStep order cfg

/-! ## The contract of the data source -/

/-- A proposed block is at least the security parameter below the tip, and it is verified
in every later state. -/
def MeetsContract (order : BlockOrder) (cfg : Config) (s : State)
    (referenceTimestamp : UInt64) : Prop :=
  ∀ block, getLatestStableBlockFor order cfg s.db referenceTimestamp = .ok (some block) →
    (∃ tip, getLatestBlockInfo order s.db = .ok tip ∧
      block.number + cfg.securityParameter.toNat ≤ tip.number) ∧
    ∀ later, (system order cfg).Reaches s later →
      (getStableBlockFor order cfg later.db block.hash referenceTimestamp later.cache).1 =
        .ok (some block)

/-- The tip is not below the security parameter, or the block with number 0 is not allowed
for the timestamp. Where the security parameter and the margin add up to more than 32 bits,
the build checks for overflow, or no allowed block is between the wrapped and the true
bound. -/
def DeepEnough (order : BlockOrder) (cfg : Config) (db : Database)
    (referenceTimestamp : UInt64) : Prop :=
  ∀ reference window tip, timestampToDbType cfg referenceTimestamp = .ok reference →
    allowedWindow cfg reference = .ok window → latestBlock order db = .ok tip →
    let k := cfg.securityParameter.toNat
    let offset := k + cfg.blockStabilityMargin.toNat
    if offset < 2 ^ 32 then
      k ≤ tip.blockNo ∨ ∀ row ∈ db.block, row.blockNo = some 0 → window.contains row = false
    else
      cfg.overflowChecks = true ∨ ∀ row ∈ db.block, window.contains row = true →
        ∀ number, row.blockNo = some number →
          number + k ≤ tip.blockNo ∨ tip.blockNo - (offset - 2 ^ 32) < number

end PartnerChains.BlockSource
