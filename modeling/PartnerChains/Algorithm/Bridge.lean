import PartnerChains.Algorithm.DbSync

/-!
# The token bridge

The data source reads transfers from the main chain after a checkpoint, the inherent data
provider passes them on with the next checkpoint, and the pallet hands them to the
transfer handler and stores that checkpoint.
-/

namespace PartnerChains.Bridge

open DbSync Relational

structure MainChainScripts where
  tokenPolicyId : PolicyId
  tokenAssetName : AssetName
  illiquidCirculationSupplyValidatorAddress : MainchainAddress
  deriving DecidableEq

inductive BridgeTransferV1 (Recipient : Type) where
  | userTransfer (tokenAmount : UInt64) (recipient : Recipient)
  | reserveTransfer (tokenAmount : UInt64)
  | invalidTransfer (tokenAmount : UInt64) (utxoId : UtxoId)
  deriving DecidableEq

/-- The point up to which transfers have been processed. -/
inductive BridgeDataCheckpoint where
  | utxo (utxo : UtxoId)
  | block (number : McBlockNumber)
  deriving DecidableEq

structure TokenBridgeTransfersV1 (Recipient : Type) where
  transfers : List (BridgeTransferV1 Recipient)
  dataCheckpoint : BridgeDataCheckpoint
  deriving DecidableEq

/-! ## The uncached data source -/

inductive GetTransfersError where
  | sqlx (error : SqlxError)
  | blockNotFound (hash : McBlockHash)
  | checkpointNotFound (checkpoint : BridgeDataCheckpoint)
  deriving DecidableEq

def fromSqlx {α : Type} : Except SqlxError α → Except GetTransfersError α
  | .ok value => .ok value
  | .error error => .error (.sqlx error)

theorem fromSqlx_eq_ok_iff {α : Type} {x : Except SqlxError α} {value : α} :
    fromSqlx x = .ok value ↔ x = .ok value := by
  cases x <;> simp [fromSqlx]

variable {Recipient : Type}

def utxoToTransfer (recipientTryFrom : ByteString → Option Recipient) (utxo : BridgeUtxo) :
    Option (BridgeTransferV1 Recipient) :=
  if utxo.tokensOut < utxo.tokensIn then none
  else
    let tokenDelta := utxo.tokensOut - utxo.tokensIn
    if tokenDelta = 0 then none
    else
      let tokenAmount := UInt64.ofNat tokenDelta
      match utxo.datum with
      | none => some (.invalidTransfer tokenAmount utxo.utxoId)
      | some datum =>
          match TokenTransferDatum.decode datum with
          | .ok (.userTransfer receiver) =>
              match recipientTryFrom receiver with
              | some recipient => some (.userTransfer tokenAmount recipient)
              | none => some (.invalidTransfer tokenAmount utxo.utxoId)
          | .ok .reserveTransfer => some (.reserveTransfer tokenAmount)
          | .error _ => some (.invalidTransfer tokenAmount utxo.utxoId)

/-- The UTXO of a checkpoint is located by its transaction. -/
def resolveCheckpoint (db : Database) (checkpoint : BridgeDataCheckpoint) :
    Except GetTransfersError ResolvedBridgeDataCheckpoint :=
  match checkpoint with
  | .block number => .ok (.block number)
  | .utxo utxo => do
      match ← fromSqlx (getBlockInfoForUtxo db utxo.txHash) with
      | none => .error (.checkpointNotFound checkpoint)
      | some info => .ok (.utxo info.blockNumber info.txIx utxo.index)

/-- The number of the current block and the UTXOs that one call reads. -/
def readUtxos (order : UtxoOrder)
    (cfg : TxInConfiguration) (db : Database) (mainChainScripts : MainChainScripts)
    (dataCheckpoint : BridgeDataCheckpoint) (maxTransfers : UInt32)
    (currentMcBlockHash : McBlockHash) :
    Except GetTransfersError (McBlockNumber × List BridgeUtxo) := do
  let asset : Asset := ⟨mainChainScripts.tokenPolicyId, mainChainScripts.tokenAssetName⟩
  match ← fromSqlx (getBlockByHash db currentMcBlockHash) with
  | none => .error (.blockNotFound currentMcBlockHash)
  | some currentMcBlock => do
      let checkpoint ← resolveCheckpoint db dataCheckpoint
      let utxos ← fromSqlx (getBridgeUtxosTx order cfg db
        mainChainScripts.illiquidCirculationSupplyValidatorAddress asset checkpoint
        currentMcBlock.blockNo (some maxTransfers.toNat))
      .ok (currentMcBlock.blockNo, utxos)

/-- A full page is continued after its last UTXO, any other one after the current block. -/
def newCheckpoint (currentBlockNo : McBlockNumber) (utxos : List BridgeUtxo)
    (maxTransfers : UInt32) : BridgeDataCheckpoint :=
  match utxos.getLast? with
  | none => .block currentBlockNo
  | some utxo =>
      if utxos.length % 2 ^ 32 < maxTransfers.toNat then .block currentBlockNo
      else .utxo utxo.utxoId

def getTransfers (recipientTryFrom : ByteString → Option Recipient)
    (order : UtxoOrder)
    (cfg : TxInConfiguration) (db : Database) (mainChainScripts : MainChainScripts)
    (dataCheckpoint : BridgeDataCheckpoint) (maxTransfers : UInt32)
    (currentMcBlockHash : McBlockHash) :
    Except GetTransfersError (List (BridgeTransferV1 Recipient) × BridgeDataCheckpoint) := do
  let (currentBlockNo, utxos) ←
    readUtxos order cfg db mainChainScripts dataCheckpoint maxTransfers currentMcBlockHash
  .ok (utxos.filterMap (utxoToTransfer recipientTryFrom),
    newCheckpoint currentBlockNo utxos maxTransfers)

/-! ## The pallet -/

structure Storage where
  mainChainScriptsConfiguration : Option MainChainScripts
  dataCheckpoint : Option BridgeDataCheckpoint
  deriving DecidableEq

structure GenesisConfig where
  mainChainScripts : Option MainChainScripts
  initialCheckpoint : Option UtxoId

def GenesisConfig.build (genesis : GenesisConfig) : Storage where
  mainChainScriptsConfiguration := genesis.mainChainScripts
  dataCheckpoint := genesis.initialCheckpoint.map .utxo

/-- The pallet's storage and the calls made to the transfer handler, oldest first. -/
structure Runtime (Recipient : Type) where
  storage : Storage
  handled : List (BridgeTransferV1 Recipient)
  deriving DecidableEq

structure Config where
  maxTransfersPerBlock : UInt32
  governanceOrigin : Origin → Bool

inductive Call (Recipient : Type) (maxTransfersPerBlock : UInt32) where
  | handleTransfers
      (transfers : BoundedVec (BridgeTransferV1 Recipient) maxTransfersPerBlock.toNat)
      (dataCheckpoint : BridgeDataCheckpoint)
  | setMainChainScripts (newScripts : MainChainScripts) (dataCheckpoint : BridgeDataCheckpoint)
  deriving DecidableEq

inductive DispatchError where
  | badOrigin
  deriving DecidableEq

def handleIncomingTransfer (r : Runtime Recipient) (transfer : BridgeTransferV1 Recipient) :
    Runtime Recipient :=
  { r with handled := r.handled ++ [transfer] }

def putCheckpoint (r : Runtime Recipient) (dataCheckpoint : BridgeDataCheckpoint) :
    Runtime Recipient :=
  { r with storage := { r.storage with dataCheckpoint := some dataCheckpoint } }

def handleTransfers (origin : Origin) (transfers : List (BridgeTransferV1 Recipient))
    (dataCheckpoint : BridgeDataCheckpoint) (r : Runtime Recipient) :
    Except DispatchError (Runtime Recipient) :=
  if origin ≠ .none then .error .badOrigin
  else .ok (putCheckpoint (transfers.foldl handleIncomingTransfer r) dataCheckpoint)

def setMainChainScripts (cfg : Config) (origin : Origin) (newScripts : MainChainScripts)
    (dataCheckpoint : BridgeDataCheckpoint) (r : Runtime Recipient) :
    Except DispatchError (Runtime Recipient) :=
  if cfg.governanceOrigin origin then
    .ok { r with storage := ⟨some newScripts, some dataCheckpoint⟩ }
  else .error .badOrigin

def dispatch (cfg : Config) (origin : Origin)
    (call : Call Recipient cfg.maxTransfersPerBlock) (r : Runtime Recipient) :
    Except DispatchError (Runtime Recipient) :=
  match call with
  | .handleTransfers transfers dataCheckpoint =>
      handleTransfers origin transfers.toList dataCheckpoint r
  | .setMainChainScripts newScripts dataCheckpoint =>
      setMainChainScripts cfg origin newScripts dataCheckpoint r

/-! ## The inherent -/

inductive InherentError where
  | inherentRequired
  | inherentNotExpected
  | incorrectInherent
  deriving DecidableEq

def decodeInherentData (data : InherentSlot (TokenBridgeTransfersV1 Recipient)) :
    Except Panic (Option (TokenBridgeTransfersV1 Recipient)) :=
  match data with
  | .error _ => .error ⟨"Bridge inherent data is not encoded correctly"⟩
  | .ok data => .ok data

def createInherent (cfg : Config) (data : InherentSlot (TokenBridgeTransfersV1 Recipient)) :
    Except Panic (Option (Call Recipient cfg.maxTransfersPerBlock)) := do
  match ← decodeInherentData data with
  | none => .ok none
  | some data =>
      match BoundedVec.tryFrom cfg.maxTransfersPerBlock.toNat data.transfers with
      | some transfers => .ok (some (.handleTransfers transfers data.dataCheckpoint))
      | none =>
          .error ⟨"The number of transfers in the inherent data must be within configured bounds"⟩

def checkInherent [DecidableEq Recipient] (cfg : Config)
    (call : Call Recipient cfg.maxTransfersPerBlock)
    (data : InherentSlot (TokenBridgeTransfersV1 Recipient)) :
    Except Panic (Except InherentError Unit) := do
  match ← createInherent cfg data with
  | none => .ok (.error .inherentNotExpected)
  | some expectedCall =>
      if call ≠ expectedCall then .ok (.error .incorrectInherent) else .ok (.ok ())

def isInherent {maxTransfersPerBlock : UInt32} : Call Recipient maxTransfersPerBlock → Bool
  | .handleTransfers .. => true
  | .setMainChainScripts .. => false

def isInherentRequired (data : InherentSlot (TokenBridgeTransfersV1 Recipient)) :
    Except Panic (Option InherentError) := do
  match ← decodeInherentData data with
  | none => .ok none
  | some _ => .ok (some .inherentRequired)

/-! ## The inherent data provider -/

inductive InherentDataProvider (Recipient : Type) where
  | inert
  | activeV1 (data : TokenBridgeTransfersV1 Recipient)
  deriving DecidableEq

/-- The runtime interface is read at the parent block. -/
def newV1 {ε : Type} (cfg : Config) (parent : Storage) (currentMcHash : McBlockHash)
    (getTransfers : MainChainScripts → BridgeDataCheckpoint → UInt32 → McBlockHash →
      Except ε (List (BridgeTransferV1 Recipient) × BridgeDataCheckpoint)) :
    Except ε (InherentDataProvider Recipient) :=
  match parent.dataCheckpoint, parent.mainChainScriptsConfiguration with
  | some lastCheckpoint, some mainChainScripts => do
      let (transfers, newCheckpoint) ←
        getTransfers mainChainScripts lastCheckpoint cfg.maxTransfersPerBlock currentMcHash
      .ok (.activeV1 ⟨transfers, newCheckpoint⟩)
  | _, _ => .ok .inert

def InherentDataProvider.provideInherentData :
    InherentDataProvider Recipient → InherentSlot (TokenBridgeTransfersV1 Recipient)
  | .inert => .ok none
  | .activeV1 data => .ok (some data)

end PartnerChains.Bridge
