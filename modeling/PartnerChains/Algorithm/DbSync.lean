import PartnerChains.Library.Relational
import PartnerChains.Algorithm.PlutusData

/-!
# The Db-Sync tables and the queries over them

A query is the list of rows its text describes. Where it has an `ORDER BY` clause, the
database picks the arrangement. Comparisons with a null block number are not true.
-/

namespace PartnerChains.DbSync

open Relational

/-! ## Tables -/

structure BlockRow where
  id : ℕ
  hash : McBlockHash
  blockNo : Option ℕ
  epochNo : Option ℕ
  slotNo : Option ℕ
  /-- Microseconds since the UNIX epoch. -/
  time : ℕ
  deriving DecidableEq

structure TxRow where
  id : ℕ
  hash : McTxHash
  blockId : ℕ
  blockIndex : ℕ
  deriving DecidableEq

structure TxOutRow where
  id : ℕ
  txId : ℕ
  index : ℕ
  address : String
  dataHash : Option (Bytes 32)
  consumedByTxId : Option ℕ
  deriving DecidableEq

structure TxInRow where
  id : ℕ
  txInId : ℕ
  txOutId : ℕ
  txOutIndex : ℕ
  deriving DecidableEq

structure MaTxOutRow where
  quantity : ℕ
  txOutId : ℕ
  ident : ℕ
  deriving DecidableEq

structure MultiAssetRow where
  id : ℕ
  policy : PolicyId
  name : AssetName
  deriving DecidableEq

/-- The JSON column of a datum: null, not in the detailed schema, or a datum. -/
inductive DatumValue where
  | null
  | malformed
  | data (datum : PlutusData)
  deriving DecidableEq

structure DatumRow where
  hash : Bytes 32
  value : DatumValue
  deriving DecidableEq

structure Database where
  block : List BlockRow
  tx : List TxRow
  txOut : List TxOutRow
  txIn : List TxInRow
  maTxOut : List MaTxOutRow
  multiAsset : List MultiAssetRow
  datum : List DatumRow

/-- Where transaction inputs are linked: in the `tx_in` table, or in the
`consumed_by_tx_id` column of `tx_out`. -/
inductive TxInConfiguration where
  | enabled
  | consumed
  deriving DecidableEq

structure Asset where
  policyId : PolicyId
  assetName : AssetName
  deriving DecidableEq

def Asset.new (policyId : PolicyId) : Asset := ⟨policyId, []⟩

/-! ## Decoding of columns -/

/-- A row whose column cannot be decoded fails the whole query. -/
inductive SqlxError where
  | columnDecode (column : String)
  deriving DecidableEq

def decodeNotNull {α : Type} (column : String) : Option α → Except SqlxError α
  | some value => .ok value
  | none => .error (.columnDecode column)

def DatumValue.decode : DatumValue → Except SqlxError PlutusData
  | .data datum => .ok datum
  | .null | .malformed => .error (.columnDecode "datum")

def DatumValue.decodeOptional : DatumValue → Except SqlxError (Option PlutusData)
  | .null => .ok none
  | .malformed => .error (.columnDecode "datum")
  | .data datum => .ok (some datum)

def decodeNativeTokenAmount (column : String) (quantity : ℕ) : Except SqlxError ℕ :=
  if quantity < 2 ^ 128 then .ok quantity else .error (.columnDecode column)

/-! ## Blocks -/

structure Block where
  blockNo : ℕ
  hash : McBlockHash
  epochNo : ℕ
  slotNo : ℕ
  time : ℕ
  deriving DecidableEq

def BlockRow.decode (row : BlockRow) : Except SqlxError Block := do
  let blockNo ← decodeNotNull "block_no" row.blockNo
  let epochNo ← decodeNotNull "epoch_no" row.epochNo
  let slotNo ← decodeNotNull "slot_no" row.slotNo
  .ok { blockNo, hash := row.hash, epochNo, slotNo, time := row.time }

def Block.toMainchainBlock (block : Block) : MainchainBlock :=
  ⟨block.blockNo, block.hash, block.epochNo, block.slotNo, block.time / 1000000⟩

/-- Block numbers have 32 bits. -/
def saturatingAdd (blockNo rhs : ℕ) : ℕ := min (blockNo + rhs) (2 ^ 32 - 1)

def numberedBlocks (db : Database) : List (ℕ × BlockRow) :=
  db.block.filterMap fun row => row.blockNo.map fun blockNo => (blockNo, row)

/-- How the database orders blocks by their number. The first block of the descending order
is the last one of the ascending order. -/
abbrev BlockOrder := Arrangement (Prod.fst : ℕ × BlockRow → ℕ)

def decodeOptional : Option (ℕ × BlockRow) → Except SqlxError (Option Block)
  | none => .ok none
  | some (_, row) => row.decode.map some

def getLatestBlockInfo (order : BlockOrder) (db : Database) : Except SqlxError (Option Block) :=
  decodeOptional (order.arrange (numberedBlocks db)).getLast?

def getBlocksByNumbers (order : BlockOrder) (db : Database) (first last : ℕ) :
    Except SqlxError (List Block) :=
  (order.arrange ((numberedBlocks db).filter fun row => first ≤ row.1 ∧ row.1 ≤ last)).mapM
    fun row => row.2.decode

/-- The slots and the times, in microseconds, between which a block is searched. -/
structure BlockWindow where
  minTime : ℤ
  minSlot : ℤ
  maxTime : ℤ
  maxSlot : ℤ

/-- A comparison with a null slot is not true. -/
def BlockWindow.contains (window : BlockWindow) (row : BlockRow) : Bool :=
  (row.slotNo.any fun slotNo => window.minSlot ≤ slotNo ∧ slotNo ≤ window.maxSlot) &&
    decide (window.minTime ≤ row.time ∧ row.time ≤ window.maxTime)

def getHighestBlock (order : BlockOrder) (db : Database) (maxBlockNumber : ℕ)
    (window : BlockWindow) : Except SqlxError (Option Block) :=
  decodeOptional ((order.arrange (numberedBlocks db)).filter fun row =>
    decide (row.1 ≤ maxBlockNumber) && window.contains row.2).getLast?

def getBlockByHash (db : Database) (hash : McBlockHash) : Except SqlxError (Option Block) :=
  match db.block.find? fun row => row.hash = hash with
  | none => .ok none
  | some row => (row.decode).map some

structure TxBlockInfo where
  blockNumber : ℕ
  txIx : ℕ
  deriving DecidableEq

def getBlockInfoForUtxo (db : Database) (txHash : McTxHash) :
    Except SqlxError (Option TxBlockInfo) :=
  let rows := do
    let tx ← db.tx
    let block ← db.block.filter fun block => block.id = tx.blockId
    if tx.hash = txHash then [(block.blockNo, tx.blockIndex)] else []
  match rows with
  | [] => .ok none
  | (blockNo, txIx) :: _ => do
      let blockNumber ← decodeNotNull "block_number" blockNo
      .ok (some ⟨blockNumber, txIx⟩)

/-! ## Bridge transfers -/

structure BridgeUtxo where
  blockNumber : ℕ
  txIx : ℕ
  txHash : McTxHash
  utxoIx : ℕ
  tokensOut : ℕ
  tokensIn : ℕ
  datum : Option PlutusData
  deriving DecidableEq

/-- Positions on the main chain: block, transaction in the block, output. -/
abbrev UtxoOrderingKey := ℕ ×ₗ ℕ ×ₗ ℕ

def UtxoOrderingKey.mk (blockNumber txIx utxoIx : ℕ) : UtxoOrderingKey :=
  toLex (blockNumber, toLex (txIx, utxoIx))

def BridgeUtxo.utxoId (utxo : BridgeUtxo) : UtxoId := ⟨utxo.txHash, utxo.utxoIx⟩

def BridgeUtxo.orderingKey (utxo : BridgeUtxo) : UtxoOrderingKey :=
  .mk utxo.blockNumber utxo.txIx utxo.utxoIx

inductive ResolvedBridgeDataCheckpoint where
  | utxo (blockNumber txIx txOutIx : ℕ)
  | block (number : ℕ)
  deriving DecidableEq

def ResolvedBridgeDataCheckpoint.getBlockNumber : ResolvedBridgeDataCheckpoint → ℕ
  | .block number => number
  | .utxo blockNumber _ _ => blockNumber

/-- The columns by which the transfers are grouped. -/
structure BridgeGroup where
  txHash : McTxHash
  outputsId : ℕ
  quantity : ℕ
  datum : DatumValue
  blockNo : ℕ
  blockIndex : ℕ
  index : ℕ
  deriving DecidableEq

def BridgeGroup.orderingKey (group : BridgeGroup) : UtxoOrderingKey :=
  .mk group.blockNo group.blockIndex group.index

section Bridge

variable (cfg : TxInConfiguration) (db : Database) (icpAddress : String) (nativeAsset : Asset)

/-- The outputs at the address that a transaction spends, or a null row. -/
def bridgeInputs (txId : ℕ) : List (Option TxOutRow) :=
  match cfg with
  | .consumed => leftJoin db.txOut fun inputs =>
      inputs.consumedByTxId = some txId ∧ inputs.address = icpAddress
  | .enabled => do
      let inputsJoin ← leftJoin db.txIn fun inputsJoin => txId = inputsJoin.txInId
      leftJoin db.txOut fun inputs =>
        match inputsJoin with
        | none => false
        | some inputsJoin => inputsJoin.txOutId = inputs.txId ∧
            inputsJoin.txOutIndex = inputs.index ∧ inputs.address = icpAddress

/-- The joined rows of an output whose position meets `condition`, as the grouping columns and the
quantity of the input. -/
def outputRows (condition : UtxoOrderingKey → Bool) (outputs : TxOutRow) :
    List (BridgeGroup × Option ℕ) := do
  let tx ← db.tx.filter fun tx => outputs.txId = tx.id
  let block ← db.block.filter fun block => tx.blockId = block.id
  let outputTokens ← db.maTxOut.filter fun tokens => tokens.txOutId = outputs.id
  let nativeToken ← db.multiAsset.filter fun asset => asset.id = outputTokens.ident
  let datum ← leftJoin db.datum fun datum => some datum.hash = outputs.dataHash
  let inputs ← bridgeInputs cfg db icpAddress tx.id
  let inputTokens ← leftJoin db.maTxOut fun tokens =>
    inputs.any fun inputs => tokens.txOutId = inputs.id ∧ tokens.ident = nativeToken.id
  match block.blockNo with
  | none => []
  | some blockNo =>
      if nativeToken.policy = nativeAsset.policyId ∧ nativeToken.name = nativeAsset.assetName ∧
          outputs.address = icpAddress ∧ condition (.mk blockNo tx.blockIndex outputs.index) then
        [({ txHash := tx.hash, outputsId := outputs.id, quantity := outputTokens.quantity,
            datum := (datum.map (·.value)).getD .null, blockNo, blockIndex := tx.blockIndex,
            index := outputs.index },
          inputTokens.map (·.quantity))]
      else []

def bridgeRows (condition : UtxoOrderingKey → Bool) : List (BridgeGroup × Option ℕ) :=
  db.txOut.flatMap (outputRows cfg db icpAddress nativeAsset condition)

end Bridge

def ResolvedBridgeDataCheckpoint.isBefore (checkpoint : ResolvedBridgeDataCheckpoint)
    (key : UtxoOrderingKey) : Bool :=
  match checkpoint with
  | .block number => decide (number < key.1)
  | .utxo blockNumber txIx txOutIx => decide (UtxoOrderingKey.mk blockNumber txIx txOutIx < key)

/-- The conditions on the position: not after `toBlock`, and after the checkpoint. -/
def bridgeCondition (checkpoint : ResolvedBridgeDataCheckpoint) (toBlock : ℕ)
    (key : UtxoOrderingKey) : Bool :=
  decide (key.1 ≤ toBlock) && checkpoint.isBefore key

def decodeBridgeUtxo (row : BridgeGroup × ℕ) : Except SqlxError BridgeUtxo := do
  let tokensOut ← decodeNativeTokenAmount "tokens_out" row.1.quantity
  let tokensIn ← decodeNativeTokenAmount "tokens_in" row.2
  let datum ← row.1.datum.decodeOptional
  .ok { blockNumber := row.1.blockNo, txIx := row.1.blockIndex, txHash := row.1.txHash,
        utxoIx := row.1.index, tokensOut, tokensIn, datum }

/-- How the database orders transfers by their position. -/
abbrev UtxoOrder := Arrangement fun row : BridgeGroup × ℕ => row.1.orderingKey

def getBridgeUtxosTx (order : UtxoOrder) (cfg : TxInConfiguration) (db : Database)
    (icpAddress : String) (nativeAsset : Asset) (checkpoint : ResolvedBridgeDataCheckpoint)
    (toBlock : ℕ) (maxUtxos : Option ℕ) : Except SqlxError (List BridgeUtxo) :=
  let groups :=
    groupSum (bridgeRows cfg db icpAddress nativeAsset (bridgeCondition checkpoint toBlock))
  let ordered := order.arrange groups
  let limited := match maxUtxos with
    | none => ordered
    | some limit => ordered.take limit
  limited.mapM decodeBridgeUtxo

/-! ## Governed map -/

inductive GovernedMapAction where
  | spend
  | create
  deriving DecidableEq

def GovernedMapAction.order : GovernedMapAction → ℤ
  | .spend => -1
  | .create => 1

/-- The consuming transaction of an output with the column that tells whether it is spent. -/
def consumingTx (cfg : TxInConfiguration) (db : Database) (txOut : TxOutRow) :
    List (Bool × Option TxRow) :=
  match cfg with
  | .enabled => do
      let consumingTxIn ← leftJoin db.txIn fun txIn =>
        txOut.txId = txIn.txOutId ∧ txOut.index = txIn.txOutIndex
      let tx ← leftJoin db.tx fun tx => consumingTxIn.any fun txIn => txIn.txInId = tx.id
      [(consumingTxIn.isSome, tx)]
  | .consumed => do
      let tx ← leftJoin db.tx fun tx => txOut.consumedByTxId = some tx.id
      [(txOut.consumedByTxId.isSome, tx)]

def consumingBlock (db : Database) (tx : Option TxRow) : List (Option BlockRow) :=
  leftJoin db.block fun block => tx.any fun tx => tx.blockId = block.id

structure DatumChangeRow where
  datum : DatumValue
  blockNo : ℕ
  blockIndex : ℕ
  action : GovernedMapAction
  deriving DecidableEq

def DatumChangeRow.orderKey (row : DatumChangeRow) : ℕ ×ₗ ℕ ×ₗ ℤ :=
  toLex (row.blockNo, toLex (row.blockIndex, row.action.order))

section Changes

variable (order : Arrangement DatumChangeRow.orderKey) (cfg : TxInConfiguration) (db : Database)
  (address : String) (afterBlock : Option ℕ) (toBlock : ℕ) (asset : Asset)

/-- The first half of the union: outputs created after `afterBlock` up to `toBlock`. -/
def createdRows : List DatumChangeRow := do
  let txOut ← db.txOut
  let originTx ← db.tx.filter fun tx => txOut.txId = tx.id
  let originBlock ← db.block.filter fun block => originTx.blockId = block.id
  let datum ← db.datum.filter fun datum => txOut.dataHash = some datum.hash
  let maTxOut ← db.maTxOut.filter fun tokens => txOut.id = tokens.txOutId
  let multiAsset ← db.multiAsset.filter fun multiAsset => multiAsset.id = maTxOut.ident
  match originBlock.blockNo with
  | none => []
  | some blockNo =>
      if txOut.address = address ∧ afterBlock.all (· < blockNo) ∧ blockNo ≤ toBlock ∧
          multiAsset.policy = asset.policyId ∧ multiAsset.name = asset.assetName then
        [⟨datum.value, blockNo, originTx.blockIndex, .create⟩]
      else []

/-- The second half of the union: outputs spent after `afterBlock` up to `toBlock`. -/
def spentRows : List DatumChangeRow := do
  let txOut ← db.txOut
  let (isSpent, tx) ← consumingTx cfg db txOut
  let block ← consumingBlock db tx
  let datum ← db.datum.filter fun datum => txOut.dataHash = some datum.hash
  let maTxOut ← db.maTxOut.filter fun tokens => txOut.id = tokens.txOutId
  let multiAsset ← db.multiAsset.filter fun multiAsset => multiAsset.id = maTxOut.ident
  match tx, block.bind (·.blockNo) with
  | some tx, some blockNo =>
      if txOut.address = address ∧ isSpent = true ∧ afterBlock.all (· < blockNo) ∧
          blockNo ≤ toBlock ∧ multiAsset.policy = asset.policyId ∧
          multiAsset.name = asset.assetName then
        [⟨datum.value, blockNo, tx.blockIndex, .spend⟩]
      else []
  | _, _ => []

structure DatumChangeOutput where
  datum : PlutusData
  blockNo : ℕ
  blockIndex : ℕ
  action : GovernedMapAction
  deriving DecidableEq

def DatumChangeRow.decode (row : DatumChangeRow) : Except SqlxError DatumChangeOutput := do
  let datum ← row.datum.decode
  .ok { datum, blockNo := row.blockNo, blockIndex := row.blockIndex, action := row.action }

/-- The two queries for changes differ in how an output is linked to its spending. -/
def governedMapChangeRows : List DatumChangeRow :=
  (createdRows db address afterBlock toBlock asset ++
    spentRows cfg db address afterBlock toBlock asset).dedup

def getGovernedMapChangesTxInEnabled : Except SqlxError (List DatumChangeOutput) :=
  (order.arrange (governedMapChangeRows .enabled db address afterBlock toBlock asset)).mapM
    DatumChangeRow.decode

def getGovernedMapChangesTxInConsumed : Except SqlxError (List DatumChangeOutput) :=
  (order.arrange (governedMapChangeRows .consumed db address afterBlock toBlock asset)).mapM
    DatumChangeRow.decode

def getGovernedMapChanges (cfg : TxInConfiguration) : Except SqlxError (List DatumChangeOutput) :=
  match cfg with
  | .enabled => getGovernedMapChangesTxInEnabled order db address afterBlock toBlock asset
  | .consumed => getGovernedMapChangesTxInConsumed order db address afterBlock toBlock asset

theorem getGovernedMapChanges_eq (cfg : TxInConfiguration) :
    getGovernedMapChanges order db address afterBlock toBlock asset cfg =
      (order.arrange (governedMapChangeRows cfg db address afterBlock toBlock asset)).mapM
        DatumChangeRow.decode := by
  cases cfg <;> rfl

end Changes

structure DatumAtRow where
  datum : DatumValue
  blockNo : ℕ
  blockIndex : ℕ
  deriving DecidableEq

def DatumAtRow.orderKey (row : DatumAtRow) : ℕ ×ₗ ℕ :=
  toLex (row.blockNo, row.blockIndex)

section State

variable (order : Arrangement DatumAtRow.orderKey) (cfg : TxInConfiguration) (db : Database)
  (address : String) (block : ℕ) (asset : Asset)

def datumRowsAt : List DatumAtRow := do
  let txOut ← db.txOut
  let originTx ← db.tx.filter fun tx => txOut.txId = tx.id
  let originBlock ← db.block.filter fun row => originTx.blockId = row.id
  let (isSpent, tx) ← consumingTx cfg db txOut
  let consuming ← consumingBlock db tx
  let datum ← db.datum.filter fun datum => txOut.dataHash = some datum.hash
  let maTxOut ← db.maTxOut.filter fun tokens => txOut.id = tokens.txOutId
  let multiAsset ← db.multiAsset.filter fun multiAsset => multiAsset.id = maTxOut.ident
  match originBlock.blockNo with
  | none => []
  | some blockNo =>
      if txOut.address = address ∧ blockNo ≤ block ∧
          (isSpent = false ∨ (consuming.bind (·.blockNo)).any (block < ·)) ∧
          multiAsset.policy = asset.policyId ∧ multiAsset.name = asset.assetName then
        [⟨datum.value, blockNo, originTx.blockIndex⟩]
      else []

def getDatumsAtAddressWithTokenTxInEnabled : Except SqlxError (List PlutusData) :=
  (order.arrange (datumRowsAt .enabled db address block asset)).mapM fun row => row.datum.decode

def getDatumsAtAddressWithTokenTxInConsumed : Except SqlxError (List PlutusData) :=
  (order.arrange (datumRowsAt .consumed db address block asset)).mapM fun row => row.datum.decode

def getDatumsAtAddressWithToken (cfg : TxInConfiguration) : Except SqlxError (List PlutusData) :=
  match cfg with
  | .enabled => getDatumsAtAddressWithTokenTxInEnabled order db address block asset
  | .consumed => getDatumsAtAddressWithTokenTxInConsumed order db address block asset

theorem getDatumsAtAddressWithToken_eq (cfg : TxInConfiguration) :
    getDatumsAtAddressWithToken order db address block asset cfg =
      (order.arrange (datumRowsAt cfg db address block asset)).mapM
        fun row => row.datum.decode := by
  cases cfg <;> rfl

end State

end PartnerChains.DbSync
