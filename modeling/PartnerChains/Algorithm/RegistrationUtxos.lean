import PartnerChains.Algorithm.CandidatesSource
import PartnerChains.Algorithm.DbSync
import PartnerChains.Algorithm.RegistrationsQuery

/-!
# The outputs at the committee candidate address

For each unspent output at the address, the query collects the inputs of its transaction as texts.
They are read back one by one, and one that cannot be read fails the whole query. The query has no
`ORDER BY` clause.
-/

namespace PartnerChains.Candidates

open DbSync Relational RegistrationsQuery

/-! ## Texts of inputs -/

/-- Null parts are left out, with their separators. -/
def concatWs (separator : String) (parts : List (Option String)) : String :=
  separator.intercalate (parts.filterMap id)

def encodeHex (hash : McTxHash) : String :=
  String.ofList (hash.val.flatMap hexDigits)

/-- The text of an input, from the joined rows of its transaction and its index. -/
def inputText (consumesTx : Option TxRow) (index : Option ℕ) : String :=
  concatWs "#" [consumesTx.map fun tx => encodeHex tx.hash, index.map toString]

def parseDigits : List Char → Option ℕ
  | [] => none
  | digits => digits.foldlM (fun value digit =>
      if digit.isDigit then some (10 * value + (digit.toNat - '0'.toNat)) else none) 0

/-- The text has to be a number for `u16` and for `i16`. -/
def utxoIndexFromStr (text : List Char) : Option UtxoIndex :=
  let digits := match text with
    | '+' :: digits => digits
    | _ => text
  (parseDigits digits).filter (· < 2 ^ 15)

/-! The hex reader of the library is a parameter. -/

variable (fromHex : String → Option ByteString)

def utxoIdFromStr (text : String) : Except String UtxoId :=
  match text.toList.splitOn '#' with
  | [hashStr, indexStr] =>
      match (fromHex (String.ofList hashStr)).bind (Bytes.tryFrom 32) with
      | none => .error "invalid string input for McTxHash"
      | some txHash =>
          match utxoIndexFromStr indexStr with
          | none => .error "invalid string input for OutputIndex"
          | some index => .ok ⟨txHash, index⟩
  | _ => .error "UtxoId string must conform to format: '<hash>#<index>'"

/-! ## Rows -/

/-- The columns by which the outputs are grouped. -/
structure MainchainTxOutputGroup where
  utxoIdTxHash : McTxHash
  utxoIdIndex : ℕ
  txBlockNo : ℕ
  txSlotNo : Option ℕ
  txEpochNo : Option ℕ
  txIndexInBlock : ℕ
  address : String
  datum : DatumValue
  deriving DecidableEq

structure MainchainTxOutputRow where
  utxoIdTxHash : McTxHash
  utxoIdIndex : ℕ
  txBlockNo : ℕ
  txSlotNo : ℕ
  txEpochNo : ℕ
  txIndexInBlock : ℕ
  address : String
  datum : Option PlutusData
  txInputs : List String
  deriving DecidableEq

/-- The texts of the inputs of a transaction, or that of a null row. -/
def consumesRows (cfg : TxInConfiguration) (db : Database) (originTx : TxRow) : List String :=
  match cfg with
  | .enabled => do
      let consumesTxIn ← leftJoin db.txIn fun txIn => txIn.txInId = originTx.id
      let consumesTxOut ← leftJoin db.txOut fun out => consumesTxIn.any fun txIn =>
        out.txId = txIn.txOutId ∧ txIn.txOutIndex = out.index
      let consumesTx ← leftJoin db.tx fun tx => consumesTxOut.any fun out => tx.id = out.txId
      [inputText consumesTx (consumesTxIn.map (·.txOutIndex))]
  | .consumed => do
      let consumesTxOut ← leftJoin db.txOut fun out => out.consumedByTxId = some originTx.id
      let consumesTx ← leftJoin db.tx fun tx => consumesTxOut.any fun out => tx.id = out.txId
      [inputText consumesTx (consumesTxOut.map (·.index))]

/-- The joined rows of the outputs created up to `block` and not spent up to `block`. -/
def utxoRows (cfg : TxInConfiguration) (db : Database) (address : String) (block : ℕ) :
    List (MainchainTxOutputGroup × String) := do
  let txOut ← db.txOut
  let originTx ← db.tx.filter fun tx => txOut.txId = tx.id
  let originBlock ← db.block.filter fun row => originTx.blockId = row.id
  let (isSpent, tx) ← consumingTx cfg db txOut
  let consuming ← consumingBlock db tx
  let input ← consumesRows cfg db originTx
  let datum ← leftJoin db.datum fun datum => txOut.dataHash = some datum.hash
  match originBlock.blockNo with
  | none => []
  | some blockNo =>
      if txOut.address = address ∧ blockNo ≤ block ∧
          (isSpent = false ∨ (consuming.bind (·.blockNo)).any (block < ·)) then
        [({ utxoIdTxHash := originTx.hash, utxoIdIndex := txOut.index, txBlockNo := blockNo,
            txSlotNo := originBlock.slotNo, txEpochNo := originBlock.epochNo,
            txIndexInBlock := originTx.blockIndex, address := txOut.address,
            datum := (datum.map (·.value)).getD .null },
          input)]
      else []

/-! ## Decoding -/

inductive UtxosError where
  | sqlx (error : SqlxError)
  | decode (message : String)
  deriving DecidableEq

def MainchainTxOutputRow.decode (row : MainchainTxOutputGroup × List String) :
    Except SqlxError MainchainTxOutputRow := do
  let txSlotNo ← decodeNotNull "tx_slot_no" row.1.txSlotNo
  let txEpochNo ← decodeNotNull "tx_epoch_no" row.1.txEpochNo
  let datum ← row.1.datum.decodeOptional
  .ok { utxoIdTxHash := row.1.utxoIdTxHash, utxoIdIndex := row.1.utxoIdIndex,
        txBlockNo := row.1.txBlockNo, txSlotNo, txEpochNo,
        txIndexInBlock := row.1.txIndexInBlock, address := row.1.address, datum,
        txInputs := row.2 }

def MainchainTxOutput.tryFrom (row : MainchainTxOutputRow) :
    Except UtxosError MainchainTxOutput := do
  let txInputs ← (row.txInputs.mapM (utxoIdFromStr fromHex)).mapError .decode
  .ok { utxoId := ⟨row.utxoIdTxHash, row.utxoIdIndex⟩, txBlockNo := row.txBlockNo,
        txSlotNo := row.txSlotNo, txEpochNo := row.txEpochNo,
        txIndexInBlock := row.txIndexInBlock, address := row.address, datum := row.datum,
        txInputs }

def convertRows (rows : List (MainchainTxOutputGroup × List String)) :
    Except UtxosError (List MainchainTxOutput) := do
  let rows ← (rows.mapM MainchainTxOutputRow.decode).mapError .sqlx
  rows.mapM (MainchainTxOutput.tryFrom fromHex)

/-- The order in which the database joins rows before it collects them, and the order of the
groups. -/
structure ScanOrder where
  joined : Arrangement fun _ : MainchainTxOutputGroup × String => ()
  groups : Arrangement fun _ : MainchainTxOutputGroup × List String => ()

def getUtxosForAddressTxInEnabled (order : ScanOrder) (db : Database) (address : String)
    (block : ℕ) : Except UtxosError (List MainchainTxOutput) :=
  convertRows fromHex (order.groups.arrange
    (groupCollect (order.joined.arrange (utxoRows .enabled db address block))))

def getUtxosForAddressTxInConsumed (order : ScanOrder) (db : Database) (address : String)
    (block : ℕ) : Except UtxosError (List MainchainTxOutput) :=
  convertRows fromHex (order.groups.arrange
    (groupCollect (order.joined.arrange (utxoRows .consumed db address block))))

def getUtxosForAddress (order : ScanOrder) (db : Database) (address : String) (block : ℕ)
    (cfg : TxInConfiguration) : Except UtxosError (List MainchainTxOutput) :=
  match cfg with
  | .enabled => getUtxosForAddressTxInEnabled fromHex order db address block
  | .consumed => getUtxosForAddressTxInConsumed fromHex order db address block

theorem getUtxosForAddress_eq (order : ScanOrder) (db : Database) (address : String) (block : ℕ)
    (cfg : TxInConfiguration) :
    getUtxosForAddress fromHex order db address block cfg =
      convertRows fromHex (order.groups.arrange
        (groupCollect (order.joined.arrange (utxoRows cfg db address block)))) := by
  cases cfg <;> rfl

end PartnerChains.Candidates
