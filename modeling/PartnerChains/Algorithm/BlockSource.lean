import PartnerChains.Algorithm.DbSync

/-!
# The Db-Sync block data source

It proposes the latest stable block for a timestamp, and it verifies that a block named by
its hash is stable for a timestamp. Verified blocks are cached.
-/

namespace PartnerChains.BlockSource

open DbSync

/-! ## Configuration -/

/-- Durations and timestamps are milliseconds. -/
structure MainchainEpochConfig where
  epochDurationMillis : UInt64
  slotDurationMillis : UInt64
  firstEpochTimestampMillis : UInt64
  firstEpochNumber : UInt32
  firstSlotNumber : UInt64

/-- The least and the greatest date and time that can be represented, in microseconds. -/
structure Calendar where
  least : ℤ
  greatest : ℤ

def Calendar.Represents (calendar : Calendar) (time : ℤ) : Prop :=
  calendar.least ≤ time ∧ time ≤ calendar.greatest

instance (calendar : Calendar) (time : ℤ) : Decidable (calendar.Represents time) :=
  inferInstanceAs (Decidable (_ ∧ _))

/-- The configuration of the data source. Slot boundaries are durations in milliseconds. -/
structure Config where
  overflowChecks : Bool
  calendar : Calendar
  securityParameter : UInt32
  minSlotBoundary : ℤ
  maxSlotBoundary : ℤ
  mainchainEpochConfig : MainchainEpochConfig
  blockStabilityMargin : UInt32
  cacheSize : UInt16

inductive Error where
  | panic (panic : Panic)
  | sqlx (error : SqlxError)
  | timestampOutOfRange (timestamp : UInt64)
  | datetimeOutOfRange (time : ℤ)
  | noLatestBlock
  | noLatestBlockWhenFillingCaches
  deriving DecidableEq

/-! ## Times and slots -/

/-- Timestamps are milliseconds, dates and times are microseconds. -/
def timestampToDbType (cfg : Config) (timestamp : UInt64) : Except Error ℤ :=
  let time : ℤ := 1000 * timestamp.toNat
  if timestamp.toNat < 2 ^ 63 ∧ cfg.calendar.Represents time then .ok time
  else .error (.timestampOutOfRange timestamp)

def subDuration (cfg : Config) (time duration : ℤ) : Except Panic ℤ :=
  let result := time - 1000 * duration
  if cfg.calendar.Represents result then .ok result
  else .error ⟨"`NaiveDateTime - TimeDelta` overflowed"⟩

def minBlockAllowedTime (cfg : Config) (referenceTimestamp : ℤ) : Except Panic ℤ :=
  subDuration cfg referenceTimestamp cfg.maxSlotBoundary

def maxAllowedBlockTime (cfg : Config) (referenceTimestamp : ℤ) : Except Panic ℤ :=
  subDuration cfg referenceTimestamp cfg.minSlotBoundary

/-- The slot of a time that is not before the first epoch. -/
def timestampToMainchainSlotNumber (overflowChecks : Bool) (cfg : MainchainEpochConfig)
    (millis : ℕ) : Except Panic (Option ℕ) :=
  if millis < cfg.firstEpochTimestampMillis.toNat then .ok none
  else do
    let slots ← Checked.div (millis - cfg.firstEpochTimestampMillis.toNat)
      cfg.slotDurationMillis.toNat
    let slot ← Checked.addWith overflowChecks 64 cfg.firstSlotNumber.toNat slots
    .ok (some slot)

def dateTimeToSlot (cfg : Config) (time : ℤ) : Except Error ℕ :=
  let millis := time / 1000
  if millis < 0 then .error (.datetimeOutOfRange time)
  else do
    let slot ← (timestampToMainchainSlotNumber cfg.overflowChecks cfg.mainchainEpochConfig
      millis.toNat).mapError .panic
    .ok (slot.getD cfg.mainchainEpochConfig.firstSlotNumber.toNat)

/-- Slots are bound to a query as signed numbers of 64 bits. -/
def bindSlot (slot : ℕ) : ℤ := (BitVec.ofNat 64 slot).toInt

def isBlockTimeValid (cfg : Config) (block : Block) (timestamp : ℤ) : Except Panic Bool := do
  let minTime ← minBlockAllowedTime cfg timestamp
  if minTime ≤ block.time then
    let maxTime ← maxAllowedBlockTime cfg timestamp
    .ok (block.time ≤ maxTime)
  else .ok false

/-! ## The latest stable block -/

variable (order : BlockOrder) (cfg : Config) (db : Database)

def latestBlock : Except Error Block := do
  match ← (DbSync.getLatestBlockInfo order db).mapError .sqlx with
  | some block => .ok block
  | none => .error .noLatestBlock

def getLatestBlockInfo : Except Error MainchainBlock :=
  (latestBlock order db).map Block.toMainchainBlock

/-- Where the blocks that are allowed for a timestamp are searched. -/
def allowedWindow (referenceTimestamp : ℤ) : Except Error BlockWindow := do
  let minTime ← (minBlockAllowedTime cfg referenceTimestamp).mapError .panic
  let minSlot ← dateTimeToSlot cfg minTime
  let maxTime ← (maxAllowedBlockTime cfg referenceTimestamp).mapError .panic
  let maxSlot ← dateTimeToSlot cfg maxTime
  .ok { minTime, minSlot := bindSlot minSlot, maxTime, maxSlot := bindSlot maxSlot }

def getLatestBlock (maxBlock : ℕ) (referenceTimestamp : ℤ) : Except Error (Option Block) := do
  let window ← allowedWindow cfg referenceTimestamp
  (getHighestBlock order db maxBlock window).mapError .sqlx

def getLatestStableBlockFor (referenceTimestamp : UInt64) :
    Except Error (Option MainchainBlock) := do
  let referenceTimestamp ← timestampToDbType cfg referenceTimestamp
  let latest ← getLatestBlockInfo order db
  let offset ← (Checked.addWith cfg.overflowChecks 32 cfg.securityParameter.toNat
    cfg.blockStabilityMargin.toNat).mapError .panic
  let stable := latest.number - offset
  let block ← getLatestBlock order cfg db stable referenceTimestamp
  .ok (block.map Block.toMainchainBlock)

/-! ## Verification by hash -/

/-- The lock of the cache is poisoned by a panic while it is held. -/
structure BlocksCache where
  fromLastByHash : List Block := []
  poisoned : Bool := false

namespace BlocksCache

def findByHash (cache : BlocksCache) (hash : McBlockHash) : Option Block :=
  if cache.poisoned then none else cache.fromLastByHash.find? fun block => block.hash = hash

def update (cache : BlocksCache) (fromLastByHash : List Block) : BlocksCache :=
  if cache.poisoned then cache else { cache with fromLastByHash }

end BlocksCache

def getStableBlockByHashFromCache (cache : BlocksCache) (hash : McBlockHash)
    (referenceTimestamp : ℤ) : Except Panic (Option Block) :=
  match cache.findByHash hash with
  | none => .ok none
  | some block => do
      let valid ← isBlockTimeValid cfg block referenceTimestamp
      .ok (if valid then some block else none)

def getStableBlockByHashFromDb (hash : McBlockHash) (referenceTimestamp : ℤ) :
    Except Error (Option Block) := do
  let block ← (DbSync.getBlockByHash db hash).mapError .sqlx
  let latestBlock ← (DbSync.getLatestBlockInfo order db).mapError .sqlx
  match block, latestBlock with
  | some block, some latestBlock =>
      if saturatingAdd block.blockNo cfg.securityParameter.toNat ≤ latestBlock.blockNo then
        let valid ← (isBlockTimeValid cfg block referenceTimestamp).mapError .panic
        .ok (if valid then some block else none)
      else .ok none
  | _, _ => .ok none

/-- The stable blocks from the given one on, as many as the cache takes. -/
def blocksToCache (fromBlock : Block) :
    Except Error (List Block) := do
  match ← (DbSync.getLatestBlockInfo order db).mapError .sqlx with
  | none => .error .noLatestBlockWhenFillingCaches
  | some latestBlock =>
      let stableBlockNum := latestBlock.blockNo - cfg.securityParameter.toNat
      let toBlockNo := min (saturatingAdd fromBlock.blockNo cfg.cacheSize.toNat) stableBlockNum
      if fromBlock.blockNo < toBlockNo then
        (getBlocksByNumbers order db fromBlock.blockNo toBlockNo).mapError .sqlx
      else .ok [fromBlock]

/-- The answer from the database, with the cache that it leaves. -/
def serveFromDb (hash : McBlockHash) (referenceTimestamp : ℤ) (cache : BlocksCache) :
    Except Error (Option MainchainBlock) × BlocksCache :=
  match getStableBlockByHashFromDb order cfg db hash referenceTimestamp with
  | .error error => (.error error, cache)
  | .ok none => (.ok none, cache)
  | .ok (some block) =>
      match blocksToCache order cfg db block with
      | .error error => (.error error, cache)
      | .ok blocks => (.ok (some block.toMainchainBlock), cache.update blocks)

def getStableBlockByHash (hash : McBlockHash) (referenceTimestamp : ℤ) (cache : BlocksCache) :
    Except Error (Option MainchainBlock) × BlocksCache :=
  match getStableBlockByHashFromCache cfg cache hash referenceTimestamp with
  | .error panic => (.error (.panic panic), { cache with poisoned := true })
  | .ok (some block) => (.ok (some block.toMainchainBlock), cache)
  | .ok none => serveFromDb order cfg db hash referenceTimestamp cache

def getStableBlockFor (hash : McBlockHash) (referenceTimestamp : UInt64) (cache : BlocksCache) :
    Except Error (Option MainchainBlock) × BlocksCache :=
  match timestampToDbType cfg referenceTimestamp with
  | .error error => (.error error, cache)
  | .ok referenceTimestamp =>
      getStableBlockByHash order cfg db hash referenceTimestamp cache

def getBlockByHash (hash : McBlockHash) (cache : BlocksCache) :
    Except Error (Option MainchainBlock) :=
  match cache.findByHash hash with
  | some block => .ok (some block.toMainchainBlock)
  | none => ((DbSync.getBlockByHash db hash).map (Option.map Block.toMainchainBlock)).mapError .sqlx

end PartnerChains.BlockSource
