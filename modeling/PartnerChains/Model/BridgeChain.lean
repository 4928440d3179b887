import PartnerChains.Library.Transition
import PartnerChains.Algorithm.Bridge
import PartnerChains.Model.Schema

/-! # Blocks and runs of the token bridge -/

namespace PartnerChains.DbSync

open Relational

/-- The bridge UTXOs of the database, in the order of their positions. -/
def bridgeLog (cfg : TxInConfiguration) (db : Database) (icpAddress : String)
    (nativeAsset : Asset) : List (BridgeGroup × ℕ) :=
  (Arrangement.stable fun row : BridgeGroup × ℕ => row.1.orderingKey).arrange
    (groupSum (bridgeRows cfg db icpAddress nativeAsset fun _ => true))

def bridgePositions (cfg : TxInConfiguration) (db : Database) (icpAddress : String)
    (nativeAsset : Asset) : List UtxoOrderingKey :=
  (bridgeLog cfg db icpAddress nativeAsset).map fun row => row.1.orderingKey

end PartnerChains.DbSync

namespace PartnerChains.Bridge

open DbSync Relational

variable {Recipient : Type}

def BridgeTransferV1.tokenAmount : BridgeTransferV1 Recipient → UInt64
  | .userTransfer tokenAmount _ => tokenAmount
  | .reserveTransfer tokenAmount => tokenAmount
  | .invalidTransfer tokenAmount _ => tokenAmount

/-! ## The inherents of one block

The framework checks every inherent call of the body on its own, asks that a required
inherent is present, and dispatches all of them. -/

def AcceptedBody [DecidableEq Recipient] (cfg : Config)
    (body : List (Call Recipient cfg.maxTransfersPerBlock))
    (data : InherentSlot (TokenBridgeTransfersV1 Recipient)) : Prop :=
  (∀ call ∈ body, isInherent call = true ∧ checkInherent cfg call data = .ok (.ok ())) ∧
    (isInherentRequired data = .ok none ∨
      isInherentRequired data = .ok (some .inherentRequired) ∧ body ≠ [])

def executeBody (cfg : Config) (body : List (Call Recipient cfg.maxTransfersPerBlock))
    (r : Runtime Recipient) : Except DispatchError (Runtime Recipient) :=
  body.foldlM (fun r call => dispatch cfg .none call r) r

def providedTransfers :
    InherentSlot (TokenBridgeTransfersV1 Recipient) → List (BridgeTransferV1 Recipient)
  | .ok (some data) => data.transfers
  | _ => []

/-- Every provided transfer was handed over exactly once, in order, and the provided
checkpoint is stored. -/
def CreditedOnce (data : InherentSlot (TokenBridgeTransfersV1 Recipient))
    (before after : Runtime Recipient) : Prop :=
  after.handled = before.handled ++ providedTransfers data ∧
    match data with
    | .ok (some data) => after.storage.dataCheckpoint = some data.dataCheckpoint
    | _ => after.storage = before.storage

/-! ## Runs

Each block asks the data source of its author, from the checkpoint its parent stored. The
database of the author agrees with the final history up to the reference block. -/

/-- What stays the same during a run. -/
structure Setup (Recipient : Type) where
  config : Config
  recipientTryFrom : ByteString → Option Recipient
  txInConfiguration : TxInConfiguration
  scripts : MainChainScripts

namespace Setup

variable (setup : Setup Recipient)

def maxTransfers : UInt32 := setup.config.maxTransfersPerBlock

def positions (db : Database) : List UtxoOrderingKey :=
  bridgePositions setup.txInConfiguration db
    setup.scripts.illiquidCirculationSupplyValidatorAddress
    ⟨setup.scripts.tokenPolicyId, setup.scripts.tokenAssetName⟩

/-- Up to block `number`, the database has the bridge UTXOs and the transaction positions of
the final history. -/
structure FinalUpTo (db final : Database) (number : McBlockNumber) : Prop where
  utxos : (setup.positions db).filter (·.1 ≤ number) =
    (setup.positions final).filter (·.1 ≤ number)
  transactions : ∀ hash info, info.blockNumber ≤ number →
    (getBlockInfoForUtxo db hash = .ok (some info) ↔
      getBlockInfoForUtxo final hash = .ok (some info))

end Setup

/-- Whether a position of the history lies after a checkpoint. -/
def isAfter (history : Database) (checkpoint : BridgeDataCheckpoint) (key : UtxoOrderingKey) :
    Bool :=
  match resolveCheckpoint history checkpoint with
  | .ok resolved => resolved.isBefore key
  | .error _ => false

inductive BlockError where
  | dataSource (error : GetTransfersError)
  | panic (panic : Panic)
  | dispatch (error : DispatchError)
  deriving DecidableEq

/-- The bridge's part of a block: the inherent data, the inherent and its dispatch. -/
def produceBlock (setup : Setup Recipient)
    (order : UtxoOrder) (db : Database)
    (currentMcHash : McBlockHash) (r : Runtime Recipient) :
    Except BlockError (Runtime Recipient) :=
  match newV1 setup.config r.storage currentMcHash
      (getTransfers setup.recipientTryFrom order setup.txInConfiguration db) with
  | .error error => .error (.dataSource error)
  | .ok provider =>
      match createInherent setup.config provider.provideInherentData with
      | .error panic => .error (.panic panic)
      | .ok none => .ok r
      | .ok (some call) =>
          match dispatch setup.config .none call r with
          | .error error => .error (.dispatch error)
          | .ok r => .ok r

structure Chain (Recipient : Type) where
  /-- The number of the last reference block. -/
  reference : McBlockNumber
  runtime : Runtime Recipient

inductive Event where
  | block (reference : McBlockNumber) (read : List BridgeUtxo)
  | failed (error : BlockError)

def Event.read : Event → List BridgeUtxo
  | .block _ read => read
  | .failed _ => []

inductive Step (setup : Setup Recipient) (final : Database) :
    Chain Recipient → Event → Chain Recipient → Prop
  | block {chain : Chain Recipient}
      {order : UtxoOrder} {db : Database}
      {hash : McBlockHash} {checkpoint : BridgeDataCheckpoint} {reference : McBlockNumber}
      {utxos : List BridgeUtxo} {runtime : Runtime Recipient} :
      chain.reference ≤ reference → Consistent db → setup.FinalUpTo db final reference →
      chain.runtime.storage.dataCheckpoint = some checkpoint →
      readUtxos order setup.txInConfiguration db setup.scripts checkpoint setup.maxTransfers
        hash = .ok (reference, utxos) →
      produceBlock setup order db hash chain.runtime = .ok runtime →
      Step setup final chain (.block reference utxos) ⟨reference, runtime⟩
  | failed {chain : Chain Recipient}
      {order : UtxoOrder} {db : Database}
      {hash : McBlockHash} {error : BlockError} :
      produceBlock setup order db hash chain.runtime = .error error →
      Step setup final chain (.failed error) chain

def system (setup : Setup Recipient) (final : Database) (start : BridgeDataCheckpoint) :
    System (Chain Recipient) Event where
  Init chain := chain = ⟨0, ⟨some setup.scripts, some start⟩, []⟩
  Step := Step setup final

/-- The UTXOs read during a run, in the order in which they were read. -/
def reads (trace : List Event) : List BridgeUtxo := trace.flatMap Event.read

@[simp]
theorem reads_nil : reads [] = [] := rfl

@[simp]
theorem reads_append_singleton (trace : List Event) (event : Event) :
    reads (trace ++ [event]) = reads trace ++ event.read := by
  simp [reads]

end PartnerChains.Bridge
