import PartnerChains.Algorithm.DbSync

/-! # The keys of the Db-Sync tables

A main chain history gives each block, transaction, output, asset and datum one row. -/

namespace PartnerChains.DbSync

structure Consistent (db : Database) : Prop where
  block_id : ∀ a ∈ db.block, ∀ b ∈ db.block, a.id = b.id → a = b
  block_no : ∀ a ∈ db.block, ∀ b ∈ db.block, ∀ number,
    a.blockNo = some number → b.blockNo = some number → a = b
  tx_hash : ∀ a ∈ db.tx, ∀ b ∈ db.tx, a.hash = b.hash → a = b
  tx_position : ∀ a ∈ db.tx, ∀ b ∈ db.tx,
    a.blockId = b.blockId → a.blockIndex = b.blockIndex → a = b
  txOut_position : ∀ a ∈ db.txOut, ∀ b ∈ db.txOut, a.txId = b.txId → a.index = b.index → a = b
  maTxOut_asset : ∀ a ∈ db.maTxOut, ∀ b ∈ db.maTxOut,
    a.txOutId = b.txOutId → a.ident = b.ident → a = b
  multiAsset_name : ∀ a ∈ db.multiAsset, ∀ b ∈ db.multiAsset,
    a.policy = b.policy → a.name = b.name → a = b
  datum_hash : ∀ a ∈ db.datum, ∀ b ∈ db.datum, a.hash = b.hash → a = b

/-- No table has a row twice, and the identifiers that other tables refer to are unique. -/
structure Keyed (db : Database) : Prop extends Consistent db where
  block_nodup : db.block.Nodup
  tx_nodup : db.tx.Nodup
  txOut_nodup : db.txOut.Nodup
  txIn_nodup : db.txIn.Nodup
  maTxOut_nodup : db.maTxOut.Nodup
  multiAsset_nodup : db.multiAsset.Nodup
  datum_nodup : db.datum.Nodup
  tx_id : ∀ a ∈ db.tx, ∀ b ∈ db.tx, a.id = b.id → a = b
  txOut_id : ∀ a ∈ db.txOut, ∀ b ∈ db.txOut, a.id = b.id → a = b
  multiAsset_id : ∀ a ∈ db.multiAsset, ∀ b ∈ db.multiAsset, a.id = b.id → a = b
  txIn_output : ∀ a ∈ db.txIn, ∀ b ∈ db.txIn,
    a.txOutId = b.txOutId → a.txOutIndex = b.txOutIndex → a = b

/-- Block numbers are stored in a column of four bytes with a sign. -/
def BlockNumbersFit (db : Database) : Prop :=
  ∀ row ∈ db.block, ∀ number ∈ row.blockNo, number < 2 ^ 31

/-! ## Spending -/

/-- The place of a transaction: its block and its index in the block. -/
abbrev TxPosition := ℕ ×ₗ ℕ

/-- A transaction is in a block with a number. -/
def TxRow.At (db : Database) (tx : TxRow) (position : TxPosition) : Prop :=
  ∃ block ∈ db.block, tx.blockId = block.id ∧ block.blockNo = some position.1 ∧
    tx.blockIndex = position.2

/-- The places of a transaction: one for each row of its block. -/
def TxRow.positions (db : Database) (tx : TxRow) : List TxPosition :=
  (db.block.filter fun block => tx.blockId = block.id).filterMap fun block =>
    block.blockNo.map fun blockNo => toLex (blockNo, tx.blockIndex)

theorem TxRow.mem_positions {db : Database} {tx : TxRow} {position : TxPosition} :
    position ∈ tx.positions db ↔ tx.At db position := by
  simp only [positions, List.mem_filterMap, List.mem_filter, decide_eq_true_eq,
    Option.map_eq_some_iff]
  constructor
  · rintro ⟨block, ⟨hblock, hid⟩, blockNo, hno, rfl⟩
    exact ⟨block, hblock, hid, hno, rfl⟩
  · rintro ⟨block, hblock, hid, hno, hindex⟩
    exact ⟨block, ⟨hblock, hid⟩, _, hno, by rw [hindex]; rfl⟩

/-- A transaction spends an output, by the tables that the configuration uses. -/
def Spends (cfg : TxInConfiguration) (db : Database) (out : TxOutRow) (tx : TxRow) : Prop :=
  match cfg with
  | .enabled => ∃ txIn ∈ db.txIn,
      txIn.txInId = tx.id ∧ out.txId = txIn.txOutId ∧ out.index = txIn.txOutIndex
  | .consumed => out.consumedByTxId = some tx.id

instance (cfg : TxInConfiguration) (db : Database) (out : TxOutRow) (tx : TxRow) :
    Decidable (Spends cfg db out tx) :=
  match cfg with
  | .enabled => inferInstanceAs (Decidable (∃ txIn ∈ db.txIn,
      txIn.txInId = tx.id ∧ out.txId = txIn.txOutId ∧ out.index = txIn.txOutIndex))
  | .consumed => inferInstanceAs (Decidable (out.consumedByTxId = some tx.id))

/-- The outputs that an input refers to. -/
def inputOutputs (db : Database) (txIn : TxInRow) : List TxOutRow :=
  db.txOut.filter fun out => out.txId = txIn.txOutId ∧ out.index = txIn.txOutIndex

/-- The inputs of a transaction refer to each output that it spends once. -/
theorem Keyed.inputOutputs_perm {db : Database} (keys : Keyed db) (tx : TxRow) :
    ((db.txIn.filter fun txIn => txIn.txInId = tx.id).flatMap (inputOutputs db)).Perm
      (db.txOut.filter fun out => Spends .enabled db out tx) := by
  refine (List.perm_ext_iff_of_nodup ?_ (keys.txOut_nodup.filter _)).mpr fun out => ?_
  · refine List.nodup_flatMap.mpr ⟨fun txIn _ => keys.txOut_nodup.filter _, ?_⟩
    refine (keys.txIn_nodup.filter _).imp_of_mem ?_
    intro a b ha hb hne out hout hout'
    obtain ⟨hid, hindex⟩ := of_decide_eq_true (List.mem_filter.mp hout).2
    obtain ⟨hid', hindex'⟩ := of_decide_eq_true (List.mem_filter.mp hout').2
    exact hne (keys.txIn_output _ (List.mem_filter.mp ha).1 _ (List.mem_filter.mp hb).1
      (hid.symm.trans hid') (hindex.symm.trans hindex'))
  · simp only [List.mem_flatMap, List.mem_filter, inputOutputs, decide_eq_true_eq]
    constructor
    · rintro ⟨txIn, ⟨hmem, hid⟩, hout, hrefer⟩
      exact ⟨hout, txIn, hmem, hid, hrefer⟩
    · rintro ⟨hout, txIn, hmem, hid, hrefer⟩
      exact ⟨txIn, ⟨hmem, hid⟩, hout, hrefer⟩

/-- The output that a transaction spends at an address, if there is one. -/
def SpentAt (cfg : TxInConfiguration) (db : Database) (address : String) (tx : TxRow)
    (spent : Option TxOutRow) : Prop :=
  (∀ row ∈ spent, row ∈ db.txOut) ∧
    ∀ row ∈ db.txOut, (Spends cfg db row tx ∧ row.address = address ↔ some row = spent)

/-- The transactions that are named as spenders are in the database. -/
def SpendersKnown (cfg : TxInConfiguration) (db : Database) : Prop :=
  match cfg with
  | .enabled => ∀ txIn ∈ db.txIn, ∃ tx ∈ db.tx, txIn.txInId = tx.id
  | .consumed => ∀ out ∈ db.txOut, ∀ id ∈ out.consumedByTxId, ∃ tx ∈ db.tx, id = tx.id

instance (cfg : TxInConfiguration) (db : Database) : Decidable (SpendersKnown cfg db) :=
  match cfg with
  | .enabled => inferInstanceAs (Decidable (∀ txIn ∈ db.txIn, ∃ tx ∈ db.tx, txIn.txInId = tx.id))
  | .consumed => inferInstanceAs (Decidable (∀ out ∈ db.txOut, ∀ id ∈ out.consumedByTxId,
      ∃ tx ∈ db.tx, id = tx.id))

/-- A history of the main chain: outputs belong to transactions, transactions to numbered
blocks, and an output is spent later than it is created. -/
structure Ledger (cfg : TxInConfiguration) (db : Database) : Prop where
  txOut_tx : ∀ out ∈ db.txOut, ∃ tx ∈ db.tx, out.txId = tx.id
  tx_block : ∀ tx ∈ db.tx, ∃ block ∈ db.block, tx.blockId = block.id
  block_no : ∀ tx ∈ db.tx, ∀ block ∈ db.block, tx.blockId = block.id → block.blockNo.isSome
  spenders : SpendersKnown cfg db
  spent_later : ∀ out ∈ db.txOut, ∀ tx ∈ db.tx, ∀ tx' ∈ db.tx, out.txId = tx.id →
    Spends cfg db out tx' → ∀ position ∈ tx.positions db, ∀ position' ∈ tx'.positions db,
      position < position'

end PartnerChains.DbSync
