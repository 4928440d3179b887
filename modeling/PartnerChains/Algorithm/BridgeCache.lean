import PartnerChains.Algorithm.BlockSource
import PartnerChains.Algorithm.Bridge

/-!
# The cached bridge data source

It keeps the bridge UTXOs of a range of blocks for one set of scripts. A call that the range
does not cover replaces the contents before it is served.
-/

namespace PartnerChains.Bridge

open DbSync Relational

/-! ## The cache -/

def MainChainScripts.assetId (scripts : MainChainScripts) : Asset :=
  ⟨scripts.tokenPolicyId, scripts.tokenAssetName⟩

/-- The hash map from identifiers to UTXOs is a function. -/
structure TokenUtxoCache where
  mcScripts : MainChainScripts := ⟨.filled 28 0, [], ""⟩
  startBlock : ℕ := 0
  endBlock : ℕ := 0
  transfers : List BridgeUtxo := []
  utxoCache : UtxoId → Option BridgeUtxo := fun _ => none

namespace TokenUtxoCache

/-- Other scripts empty the range, and leave the map from identifiers. -/
def setMcScripts (cache : TokenUtxoCache) (mcScripts : MainChainScripts) : TokenUtxoCache :=
  if cache.mcScripts ≠ mcScripts then
    { cache with mcScripts, transfers := [], startBlock := 0, endBlock := 0 }
  else cache

/-- Of two UTXOs with the same identifier, the later one is kept in the map. -/
def setCachedTransfers (cache : TokenUtxoCache) (startBlock endBlock : ℕ)
    (transfers : List BridgeUtxo) : TokenUtxoCache :=
  { cache with
    startBlock, endBlock, transfers
    utxoCache := fun utxoId => transfers.reverse.find? fun utxo => utxo.utxoId = utxoId }

/-- The transfers after the skipped ones, up to a block and a number of transfers. -/
def servedTransfers (cache : TokenUtxoCache) (skipPred : BridgeUtxo → Bool) (toBlock : ℕ)
    (maxTransfers : UInt32) : List BridgeUtxo :=
  ((cache.transfers.dropWhile skipPred).takeWhile fun utxo =>
    decide (utxo.blockNumber ≤ toBlock)).take maxTransfers.toNat

def serveFromCache (cache : TokenUtxoCache) (checkpoint : ResolvedBridgeDataCheckpoint)
    (toBlock : ℕ) (maxTransfers : UInt32) : Option (List BridgeUtxo) :=
  if cache.endBlock < toBlock then none
  else
    match checkpoint with
    | .block number =>
        if cache.startBlock ≤ saturatingAdd number 1 then
          some (cache.servedTransfers (fun utxo => decide (utxo.blockNumber ≤ number)) toBlock
            maxTransfers)
        else none
    | .utxo blockNumber txIx txOutIx =>
        if cache.startBlock ≤ blockNumber then
          some (cache.servedTransfers
            (fun utxo => decide (utxo.orderingKey ≤ .mk blockNumber txIx txOutIx)) toBlock
            maxTransfers)
        else none

def tryResolveCheckpointFromCache (cache : TokenUtxoCache) (utxoId : UtxoId) :
    Option ResolvedBridgeDataCheckpoint :=
  (cache.utxoCache utxoId).map fun utxo => .utxo utxo.blockNumber utxo.txIx utxo.utxoIx

end TokenUtxoCache

/-! ## Calls -/

inductive CachedError where
  | blocks (error : BlockSource.Error)
  | sqlx (error : SqlxError)
  | blockNotFound (hash : McBlockHash)
  | blockInfoNotFound (utxoId : UtxoId)
  | dataShouldBePresent
  deriving DecidableEq

/-- The block data source that is shared with other data sources. Its cache holds blocks of
the database. -/
structure BlockDataSource (db : Database) where
  getBlockByHash : McBlockHash → Except BlockSource.Error (Option MainchainBlock)
  getLatestBlockInfo : Except BlockSource.Error MainchainBlock
  getLatestStableBlockFor : ℕ → Except BlockSource.Error (Option MainchainBlock)
  getBlockByHash_eq : ∀ hash, getBlockByHash hash =
    ((DbSync.getBlockByHash db hash).map (Option.map Block.toMainchainBlock)).mapError .sqlx

structure CachedSource (Recipient : Type) where
  recipientTryFrom : ByteString → Option Recipient
  txInConfig : TxInConfiguration
  cacheLookahead : UInt32

/-- The arguments of a call, with the order of rows and the block data source that it meets.
Block numbers have 32 bits. -/
structure CachedCall (db : Database) where
  order : UtxoOrder
  blocks : BlockDataSource db
  mainChainScripts : MainChainScripts
  dataCheckpoint : BridgeDataCheckpoint
  maxTransfers : UInt32
  currentMcBlockHash : McBlockHash
  checkpoint_lt : ∀ number, dataCheckpoint = .block number → number < 2 ^ 32

variable {Recipient : Type} {db : Database}

namespace CachedCall

variable (src : CachedSource Recipient) (call : CachedCall db)

def toBlock : Except CachedError ℕ := do
  match ← (call.blocks.getBlockByHash call.currentMcBlockHash).mapError .blocks with
  | none => .error (.blockNotFound call.currentMcBlockHash)
  | some block => .ok block.number

def resolveCheckpointForUtxo (db : Database) (utxoId : UtxoId) :
    Except CachedError ResolvedBridgeDataCheckpoint := do
  match ← (getBlockInfoForUtxo db utxoId.txHash).mapError .sqlx with
  | none => .error (.blockInfoNotFound utxoId)
  | some info => .ok (.utxo info.blockNumber info.txIx utxoId.index)

def resolveDataCheckpoint (cache : TokenUtxoCache) :
    Except CachedError ResolvedBridgeDataCheckpoint :=
  match call.dataCheckpoint with
  | .block number => .ok (.block number)
  | .utxo utxoId =>
      match cache.tryResolveCheckpointFromCache utxoId with
      | some checkpoint => .ok checkpoint
      | none => resolveCheckpointForUtxo db utxoId

def tryServeFromCache (checkpoint : ResolvedBridgeDataCheckpoint) (toBlock : ℕ)
    (cache : TokenUtxoCache) : Option (List BridgeUtxo) :=
  cache.serveFromCache checkpoint toBlock call.maxTransfers

def getLatestStableBlock : Except CachedError (Option ℕ) := do
  let latestBlock ← call.blocks.getLatestBlockInfo.mapError .blocks
  let stableBlock ← (call.blocks.getLatestStableBlockFor latestBlock.timestamp).mapError .blocks
  .ok (stableBlock.map (·.number))

def fillToBlock (toBlock : ℕ) (latestStableBlock : Option ℕ) : ℕ :=
  min (saturatingAdd toBlock src.cacheLookahead.toNat) (latestStableBlock.getD toBlock)

/-- The range and the transfers that a fill stores. All data in the block of the checkpoint
are read. -/
def readFill (checkpoint : ResolvedBridgeDataCheckpoint) (toBlock : ℕ) :
    Except CachedError (ℕ × ℕ × List BridgeUtxo) := do
  let fromBlock := checkpoint.getBlockNumber
  let latestStableBlock ← call.getLatestStableBlock
  let toBlock := fillToBlock src toBlock latestStableBlock
  let utxos ← (getBridgeUtxosTx call.order src.txInConfig db
    call.mainChainScripts.illiquidCirculationSupplyValidatorAddress call.mainChainScripts.assetId
    (.block (fromBlock - 1)) toBlock none).mapError .sqlx
  .ok (fromBlock, toBlock, utxos)

def newCheckpoint (toBlock : ℕ) (utxos : List BridgeUtxo) : BridgeDataCheckpoint :=
  match utxos.getLast? with
  | some utxo =>
      if call.maxTransfers.toNat ≤ utxos.length % 2 ^ 32 then .utxo utxo.utxoId
      else .block toBlock
  | none => .block toBlock

def answer (toBlock : ℕ) (utxos : List BridgeUtxo) :
    List (BridgeTransferV1 Recipient) × BridgeDataCheckpoint :=
  (utxos.filterMap (utxoToTransfer src.recipientTryFrom), call.newCheckpoint toBlock utxos)

def answerAfterFill (checkpoint : ResolvedBridgeDataCheckpoint) (toBlock : ℕ)
    (cache : TokenUtxoCache) :
    Except CachedError (List (BridgeTransferV1 Recipient) × BridgeDataCheckpoint) :=
  match call.tryServeFromCache checkpoint toBlock cache with
  | some utxos => .ok (call.answer src toBlock utxos)
  | none => .error .dataShouldBePresent

/-- A call with the cache that it leaves. The scripts are set even by a call that fails. -/
def getTransfers (cache : TokenUtxoCache) :
    Except CachedError (List (BridgeTransferV1 Recipient) × BridgeDataCheckpoint) ×
      TokenUtxoCache :=
  let cache := cache.setMcScripts call.mainChainScripts
  match call.toBlock with
  | .error error => (.error error, cache)
  | .ok toBlock =>
      match call.resolveDataCheckpoint cache with
      | .error error => (.error error, cache)
      | .ok checkpoint =>
          match call.tryServeFromCache checkpoint toBlock cache with
          | some utxos => (.ok (call.answer src toBlock utxos), cache)
          | none =>
              match call.readFill src checkpoint toBlock with
              | .error error => (.error error, cache)
              | .ok (startBlock, endBlock, utxos) =>
                  let cache := cache.setCachedTransfers startBlock endBlock utxos
                  (call.answerAfterFill src checkpoint toBlock cache, cache)

end CachedCall

end PartnerChains.Bridge
