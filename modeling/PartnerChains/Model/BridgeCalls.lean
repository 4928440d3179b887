import PartnerChains.Library.Interleaving
import PartnerChains.Algorithm.BridgeCache
import PartnerChains.Model.BridgeChain

/-!
# Calls of the cached bridge data source

Calls are made one after the other, or they overlap. A call that overlaps with others lets
them run each time it has released the lock of the cache.
-/

namespace PartnerChains.Bridge

open DbSync

variable {Recipient : Type} {db : Database}

/-! ## Rows -/

def scriptsLog (cfg : TxInConfiguration) (db : Database) (scripts : MainChainScripts) :
    List (BridgeGroup × ℕ) :=
  bridgeLog cfg db scripts.illiquidCirculationSupplyValidatorAddress scripts.assetId

/-- Whatever the scripts are, no bridge UTXO is in block 0. -/
def FirstBlockEmpty (cfg : TxInConfiguration) (db : Database) : Prop :=
  ∀ scripts, ∀ row ∈ scriptsLog cfg db scripts, row.1.blockNo ≠ 0

def rangeRows (cfg : TxInConfiguration) (db : Database) (scripts : MainChainScripts)
    (startBlock endBlock : ℕ) : List (BridgeGroup × ℕ) :=
  (scriptsLog cfg db scripts).filter fun row =>
    decide (startBlock ≤ row.1.blockNo ∧ row.1.blockNo ≤ endBlock)

def pageRows (cfg : TxInConfiguration) (db : Database) (scripts : MainChainScripts)
    (checkpoint : ResolvedBridgeDataCheckpoint) (toBlock : ℕ) (maxTransfers : UInt32) :
    List (BridgeGroup × ℕ) :=
  ((scriptsLog cfg db scripts).filter fun row =>
    bridgeCondition checkpoint toBlock row.1.orderingKey).take maxTransfers.toNat

def Readable (rows : List (BridgeGroup × ℕ)) : Prop :=
  ∀ row ∈ rows, ∃ utxo, decodeBridgeUtxo row = .ok utxo

/-! ## Calls in sequence -/

namespace CachedCall

def uncached (src : CachedSource Recipient) (call : CachedCall db) :
    Except GetTransfersError (List (BridgeTransferV1 Recipient) × BridgeDataCheckpoint) :=
  Bridge.getTransfers src.recipientTryFrom call.order src.txInConfig db call.mainChainScripts
    call.dataCheckpoint call.maxTransfers call.currentMcBlockHash

end CachedCall

/-- A call of a sequence, with the cache that it finds. -/
structure Served (Recipient : Type) (db : Database) where
  call : CachedCall db
  cache : TokenUtxoCache
  result : Except CachedError (List (BridgeTransferV1 Recipient) × BridgeDataCheckpoint)

/-- The data source answers one call after the other. -/
def serve (src : CachedSource Recipient) :
    TokenUtxoCache → List (CachedCall db) → List (Served Recipient db)
  | _, [] => []
  | cache, call :: calls =>
      ⟨call, cache, (call.getTransfers src cache).1⟩ ::
        serve src (call.getTransfers src cache).2 calls

namespace Served

variable (src : CachedSource Recipient) (served : Served Recipient db)

/-- The call returns what the uncached source returns, and does not miss the data that it
has stored. -/
structure Transparent : Prop where
  same : served.result.toOption = (served.call.uncached src).toOption
  present : served.result ≠ .error .dataShouldBePresent

/-- When the cache cannot serve the call, the reported stable block is not before the
requested one, and the rows up to it can be read. Otherwise neither source can read its rows. -/
def Covered : Prop :=
  ∀ toBlock checkpoint, served.call.toBlock = .ok toBlock →
    resolveCheckpoint db served.call.dataCheckpoint = .ok checkpoint →
    served.call.tryServeFromCache checkpoint toBlock
      (served.cache.setMcScripts served.call.mainChainScripts) = none →
    let fillRows stable := rangeRows src.txInConfig db served.call.mainChainScripts
      checkpoint.getBlockNumber (CachedCall.fillToBlock src toBlock stable)
    (∃ stable, served.call.getLatestStableBlock = .ok stable ∧
        toBlock ≤ stable.getD toBlock ∧ Readable (fillRows stable)) ∨
      ¬ Readable (pageRows src.txInConfig db served.call.mainChainScripts checkpoint toBlock
          served.call.maxTransfers) ∧
        ∀ stable, served.call.getLatestStableBlock = .ok stable → ¬ Readable (fillRows stable)

end Served

/-! ## Calls that overlap -/

/-- How far a call has come. -/
inductive Phase (Recipient : Type) where
  | idle
  | begun
  | located (toBlock : ℕ)
  | resolved (toBlock : ℕ) (checkpoint : ResolvedBridgeDataCheckpoint)
  | missed (toBlock : ℕ) (checkpoint : ResolvedBridgeDataCheckpoint)
  | filling (toBlock : ℕ) (checkpoint : ResolvedBridgeDataCheckpoint) (startBlock endBlock : ℕ)
      (utxos : List BridgeUtxo)
  | filled (toBlock : ℕ) (checkpoint : ResolvedBridgeDataCheckpoint)
  | done (result :
      Except CachedError (List (BridgeTransferV1 Recipient) × BridgeDataCheckpoint))

namespace Phase

/-- The call has set its scripts and has not returned. -/
def InFlight : Phase Recipient → Prop
  | .idle | .done _ => False
  | _ => True

def orFail {α : Type} (next : α → Phase Recipient) : Except CachedError α → Phase Recipient
  | .ok a => next a
  | .error error => .done (.error error)

end Phase

/-- What a call does until it next waits for the lock or for the database. -/
def CachedCall.advance (src : CachedSource Recipient) (call : CachedCall db) :
    Phase Recipient → TokenUtxoCache → Phase Recipient × TokenUtxoCache
  | .idle, cache => (.begun, cache.setMcScripts call.mainChainScripts)
  | .begun, cache => (.orFail .located call.toBlock, cache)
  | .located toBlock, cache =>
      (.orFail (.resolved toBlock) (call.resolveDataCheckpoint cache), cache)
  | .resolved toBlock checkpoint, cache =>
      match call.tryServeFromCache checkpoint toBlock cache with
      | some utxos => (.done (.ok (call.answer src toBlock utxos)), cache)
      | none => (.missed toBlock checkpoint, cache)
  | .missed toBlock checkpoint, cache =>
      (.orFail (fun (startBlock, endBlock, utxos) =>
        .filling toBlock checkpoint startBlock endBlock utxos)
        (call.readFill src checkpoint toBlock), cache)
  | .filling toBlock checkpoint startBlock endBlock utxos, cache =>
      (.filled toBlock checkpoint, cache.setCachedTransfers startBlock endBlock utxos)
  | .filled toBlock checkpoint, cache =>
      (.done (call.answerAfterFill src checkpoint toBlock cache), cache)
  | .done result, cache => (.done result, cache)

/-- Any number of calls, each with its own arguments. -/
def cachedCalls {ι : Type} (src : CachedSource Recipient) (calls : ι → CachedCall db) :
    Threads ι (Phase Recipient) TokenUtxoCache where
  start _ := .idle
  advance i := (calls i).advance src

/-- A call does not begin while one with other scripts is in flight. -/
def ScriptsAgree {ι : Type} (calls : ι → CachedCall db)
    (c : Threads.Configuration ι (Phase Recipient) TokenUtxoCache) (i : ι) : Prop :=
  c.threads i = .idle → ∀ j, (c.threads j).InFlight →
    (calls j).mainChainScripts = (calls i).mainChainScripts

end PartnerChains.Bridge
