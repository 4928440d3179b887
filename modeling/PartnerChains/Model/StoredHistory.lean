import PartnerChains.Model.Schema

/-!
# One history in two databases

A database may keep the inputs of transactions as rows of their own, or mark each output with the
transaction that spends it. Two databases of the same history may also number and order their rows
differently.
-/

namespace PartnerChains.DbSync

open Relational

/-- The identifiers of the rows of one database in another. -/
structure Numbering where
  block : ℕ → ℕ
  tx : ℕ → ℕ
  txOut : ℕ → ℕ
  asset : ℕ → ℕ
  block_injective : Function.Injective block
  tx_injective : Function.Injective tx
  txOut_injective : Function.Injective txOut
  asset_injective : Function.Injective asset

def BlockRow.renumber (ids : Numbering) (row : BlockRow) : BlockRow :=
  { row with id := ids.block row.id }

def TxRow.renumber (ids : Numbering) (row : TxRow) : TxRow :=
  { row with id := ids.tx row.id, blockId := ids.block row.blockId }

def MaTxOutRow.renumber (ids : Numbering) (row : MaTxOutRow) : MaTxOutRow :=
  { row with txOutId := ids.txOut row.txOutId, ident := ids.asset row.ident }

def MultiAssetRow.renumber (ids : Numbering) (row : MultiAssetRow) : MultiAssetRow :=
  { row with id := ids.asset row.id }

/-- The row of an output where inputs are rows, and its row where the output is marked: it names a
transaction exactly when an input links the output to it. -/
structure SameOutput (ids : Numbering) (txIn : List TxInRow) (out out' : TxOutRow) : Prop where
  id : out'.id = ids.txOut out.id
  txId : out'.txId = ids.tx out.txId
  index : out'.index = out.index
  address : out'.address = out.address
  dataHash : out'.dataHash = out.dataHash
  consumedByTxId : ∀ txId, out'.consumedByTxId = some txId ↔
    ∃ input ∈ txIn, txId = ids.tx input.txInId ∧ out.txId = input.txOutId ∧
      out.index = input.txOutIndex

structure SameHistory (ids : Numbering) (enabled consumed : Database) : Prop where
  block : Corresponds (fun row row' => row' = row.renumber ids) enabled.block consumed.block
  tx : Corresponds (fun row row' => row' = row.renumber ids) enabled.tx consumed.tx
  txOut : Corresponds (SameOutput ids enabled.txIn) enabled.txOut consumed.txOut
  maTxOut : Corresponds (fun row row' => row' = row.renumber ids) enabled.maTxOut consumed.maTxOut
  multiAsset : Corresponds (fun row row' => row' = row.renumber ids) enabled.multiAsset
    consumed.multiAsset
  datum : enabled.datum.Perm consumed.datum
  txIn_output : ∀ txIn ∈ enabled.txIn, ∃ out ∈ enabled.txOut,
    out.txId = txIn.txOutId ∧ out.index = txIn.txOutIndex

end PartnerChains.DbSync
