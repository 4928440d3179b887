import PartnerChains.Library.Paging
import PartnerChains.Model.BridgeChain

/-!
# The bridge query reads pages of one sorted log

The log is the list of positions of all bridge UTXOs. The checkpoint and the limit of a
query only select a page of it.
-/

namespace PartnerChains.DbSync

open Relational Fallible

variable {cfg : TxInConfiguration} {db : Database} {icpAddress : String} {nativeAsset : Asset}

/-! ## Positions -/

theorem UtxoOrderingKey.block_le {x y : UtxoOrderingKey} (h : x ≤ y) : x.1 ≤ y.1 :=
  Prod.Lex.monotone_fst x y h

theorem UtxoOrderingKey.mk_inj {b t o b' t' o' : ℕ} :
    UtxoOrderingKey.mk b t o = UtxoOrderingKey.mk b' t' o' ↔ b = b' ∧ t = t' ∧ o = o' := by
  simp [UtxoOrderingKey.mk]

/-- What is after a checkpoint stays so further on. -/
theorem ResolvedBridgeDataCheckpoint.isBefore_of_le
    (checkpoint : ResolvedBridgeDataCheckpoint) {x y : UtxoOrderingKey}
    (h : checkpoint.isBefore x = true) (hle : x ≤ y) : checkpoint.isBefore y = true := by
  cases checkpoint with
  | block number =>
      have hlt : number < x.1 := by simpa [isBefore] using h
      simpa [isBefore] using hlt.trans_le (UtxoOrderingKey.block_le hle)
  | utxo blockNumber txIx txOutIx =>
      have hlt : UtxoOrderingKey.mk blockNumber txIx txOutIx < x := by simpa [isBefore] using h
      simpa [isBefore] using hlt.trans_le hle

/-! ## Joined rows -/

/-- The rows that belong to an output at the address. -/
structure ObservedOutput (db : Database) (icpAddress : String) (nativeAsset : Asset) (tx : TxRow)
    (block : BlockRow) (blockNo : ℕ) (out : TxOutRow) (tokens : MaTxOutRow)
    (asset : MultiAssetRow) (datum : Option DatumRow) : Prop where
  tx_mem : tx ∈ db.tx
  block_mem : block ∈ db.block
  tx_block : tx.blockId = block.id
  block_no : block.blockNo = some blockNo
  out_mem : out ∈ db.txOut
  out_tx : out.txId = tx.id
  out_address : out.address = icpAddress
  tokens_mem : tokens ∈ db.maTxOut
  tokens_out : tokens.txOutId = out.id
  asset_mem : asset ∈ db.multiAsset
  tokens_asset : asset.id = tokens.ident
  asset_policy : asset.policy = nativeAsset.policyId
  asset_name : asset.name = nativeAsset.assetName
  datum_mem : datum ∈ leftJoin db.datum fun datum => some datum.hash = out.dataHash

def observedGroup (tx : TxRow) (blockNo : ℕ) (out : TxOutRow) (tokens : MaTxOutRow)
    (datum : Option DatumRow) : BridgeGroup where
  txHash := tx.hash
  outputsId := out.id
  quantity := tokens.quantity
  datum := (datum.map (·.value)).getD .null
  blockNo := blockNo
  blockIndex := tx.blockIndex
  index := out.index

variable {condition : UtxoOrderingKey → Bool}

theorem exists_observedOutput {out : TxOutRow} (hout : out ∈ db.txOut)
    {row : BridgeGroup × Option ℕ}
    (hrow : row ∈ outputRows cfg db icpAddress nativeAsset condition out) :
    ∃ tx block blockNo tokens asset datum,
      ObservedOutput db icpAddress nativeAsset tx block blockNo out tokens asset datum ∧
        row.1 = observedGroup tx blockNo out tokens datum := by
  simp only [outputRows, List.bind_eq_flatMap, List.mem_flatMap, List.mem_filter,
    decide_eq_true_eq] at hrow
  obtain ⟨tx, ⟨htx, htxId⟩, block, ⟨hblock, hblockId⟩, tokens, ⟨htokens, htokensId⟩, asset,
    ⟨hasset, hassetId⟩, datum, hdatum, inputs, -, inputTokens, -, hrow⟩ := hrow
  cases hno : block.blockNo with
  | none => simp [hno] at hrow
  | some blockNo =>
      simp only [hno] at hrow
      split_ifs at hrow with hcondition
      · obtain rfl := List.mem_singleton.mp hrow
        obtain ⟨hpolicy, hname, haddress, -⟩ := hcondition
        exact ⟨tx, block, blockNo, tokens, asset, datum, ⟨htx, hblock, hblockId, hno, hout, htxId,
          haddress, htokens, htokensId, hasset, hassetId, hpolicy, hname, hdatum⟩, rfl⟩
      · simp at hrow

theorem mem_bridgeRows {row : BridgeGroup × Option ℕ}
    (h : row ∈ bridgeRows cfg db icpAddress nativeAsset condition) :
    ∃ tx block blockNo out tokens asset datum,
      ObservedOutput db icpAddress nativeAsset tx block blockNo out tokens asset datum ∧
        row.1 = observedGroup tx blockNo out tokens datum := by
  rw [bridgeRows] at h
  obtain ⟨out, hout, hrow⟩ := List.mem_flatMap.mp h
  obtain ⟨tx, block, blockNo, tokens, asset, datum, hobserved, hgroup⟩ :=
    exists_observedOutput hout hrow
  exact ⟨tx, block, blockNo, out, tokens, asset, datum, hobserved, hgroup⟩

theorem bridgeRows_filter (condition : UtxoOrderingKey → Bool) :
    bridgeRows cfg db icpAddress nativeAsset condition =
      (bridgeRows cfg db icpAddress nativeAsset fun _ => true).filter
        fun row => condition row.1.orderingKey := by
  rw [bridgeRows, bridgeRows, List.filter_flatMap]
  congr 1
  funext outputs
  simp only [outputRows, List.bind_eq_flatMap, List.filter_flatMap]
  -- the condition is the innermost part of the joins
  congr! 14 with tx block tokens asset datum inputs inputTokens
  cases block.blockNo with
  | none => rfl
  | some blockNo =>
      by_cases hcondition :
          condition (UtxoOrderingKey.mk blockNo tx.blockIndex outputs.index) = true
      · simp only [hcondition]
        split_ifs <;> simp [BridgeGroup.orderingKey, hcondition]
      · simp only [hcondition]
        split_ifs <;> simp_all [BridgeGroup.orderingKey]

theorem Consistent.datum_eq (hdb : Consistent db) {hash : Option (Bytes 32)}
    {datum datum' : Option DatumRow} (h : datum ∈ leftJoin db.datum (some ·.hash = hash))
    (h' : datum' ∈ leftJoin db.datum (some ·.hash = hash)) : datum = datum' := by
  cases datum with
  | none =>
      cases datum' with
      | none => rfl
      | some row' =>
          have hrow' := some_mem_leftJoin.mp h'
          simp [none_mem_leftJoin.mp h row' hrow'.1] at hrow'
  | some row =>
      have hrow := some_mem_leftJoin.mp h
      cases datum' with
      | none => simp [none_mem_leftJoin.mp h' row hrow.1] at hrow
      | some row' =>
          have hrow' := some_mem_leftJoin.mp h'
          simp only [decide_eq_true_eq] at hrow hrow'
          rw [hdb.datum_hash _ hrow.1 _ hrow'.1 (Option.some.inj (hrow.2.trans hrow'.2.symm))]

theorem Consistent.bridgeGroup_eq (hdb : Consistent db) {row row' : BridgeGroup × Option ℕ}
    (h : row ∈ bridgeRows cfg db icpAddress nativeAsset condition)
    (h' : row' ∈ bridgeRows cfg db icpAddress nativeAsset condition)
    (hkey : row.1.orderingKey = row'.1.orderingKey) : row.1 = row'.1 := by
  obtain ⟨tx, block, blockNo, out, tokens, asset, datum, hrow, hgroup⟩ := mem_bridgeRows h
  obtain ⟨tx', block', blockNo', out', tokens', asset', datum', hrow', hgroup'⟩ :=
    mem_bridgeRows h'
  rw [hgroup, hgroup'] at hkey
  obtain ⟨hblockNo, hblockIndex, hindex⟩ := UtxoOrderingKey.mk_inj.mp hkey
  obtain rfl : blockNo = blockNo' := hblockNo
  obtain rfl : block = block' :=
    hdb.block_no _ hrow.block_mem _ hrow'.block_mem _ hrow.block_no hrow'.block_no
  obtain rfl : tx = tx' := hdb.tx_position _ hrow.tx_mem _ hrow'.tx_mem
    (hrow.tx_block.trans hrow'.tx_block.symm) hblockIndex
  obtain rfl : out = out' := hdb.txOut_position _ hrow.out_mem _ hrow'.out_mem
    (hrow.out_tx.trans hrow'.out_tx.symm) hindex
  obtain rfl : asset = asset' := hdb.multiAsset_name _ hrow.asset_mem _ hrow'.asset_mem
    (hrow.asset_policy.trans hrow'.asset_policy.symm) (hrow.asset_name.trans hrow'.asset_name.symm)
  obtain rfl : tokens = tokens' := hdb.maTxOut_asset _ hrow.tokens_mem _ hrow'.tokens_mem
    (hrow.tokens_out.trans hrow'.tokens_out.symm)
    (hrow.tokens_asset.symm.trans hrow'.tokens_asset)
  obtain rfl : datum = datum' := hdb.datum_eq hrow.datum_mem hrow'.datum_mem
  rw [hgroup, hgroup']

/-! ## The log -/

theorem Consistent.groupSum_keys_nodup (hdb : Consistent db) :
    ((groupSum (bridgeRows cfg db icpAddress nativeAsset fun _ => true)).map
      fun row => row.1.orderingKey).Nodup := by
  refine List.Nodup.map_on ?_ (Relational.groupSum_keys_nodup _).of_map
  rintro ⟨group, total⟩ hrow ⟨group', total'⟩ hrow' hkey
  obtain ⟨hmem, rfl⟩ := mem_groupSum.mp hrow
  obtain ⟨hmem', rfl⟩ := mem_groupSum.mp hrow'
  obtain ⟨row, hin, rfl⟩ := List.mem_map.mp hmem
  obtain ⟨row', hin', rfl⟩ := List.mem_map.mp hmem'
  rw [hdb.bridgeGroup_eq hin hin' hkey]

theorem Consistent.bridgePositions_increasing (hdb : Consistent db) :
    (bridgePositions cfg db icpAddress nativeAsset).Pairwise (· < ·) := by
  refine List.pairwise_map.mpr (pairwise_lt_of_nodup (Arrangement.sorted _ _) ?_)
  exact ((Arrangement.perm _ _).map _).nodup_iff.mpr hdb.groupSum_keys_nodup

theorem Consistent.arrange_bridgeRows (hdb : Consistent db)
    (order : UtxoOrder)
    (condition : UtxoOrderingKey → Bool) :
    order.arrange (groupSum (bridgeRows cfg db icpAddress nativeAsset condition)) =
      (bridgeLog cfg db icpAddress nativeAsset).filter
        fun row => condition row.1.orderingKey := by
  refine order.arrange_filter (Arrangement.stable _) hdb.groupSum_keys_nodup _ ?_
  rw [bridgeRows_filter condition]
  exact groupSum_filter_perm _ fun group : BridgeGroup => condition group.orderingKey

theorem decodeBridgeUtxo_eq_ok {row : BridgeGroup × ℕ} {utxo : BridgeUtxo}
    (h : decodeBridgeUtxo row = .ok utxo) :
    utxo.orderingKey = row.1.orderingKey ∧ utxo.txHash = row.1.txHash := by
  simp only [decodeBridgeUtxo, bind_eq_ok_iff, Except.ok.injEq] at h
  obtain ⟨_, _, _, _, _, _, rfl⟩ := h
  exact ⟨rfl, rfl⟩

/-- The positions that a query returns are a page of all positions, and each returned UTXO
comes from the log. -/
theorem Consistent.getBridgeUtxosTx_spec (hdb : Consistent db)
    {order : UtxoOrder}
    {checkpoint : ResolvedBridgeDataCheckpoint} {toBlock limit : ℕ} {utxos : List BridgeUtxo}
    (h : getBridgeUtxosTx order cfg db icpAddress nativeAsset checkpoint toBlock (some limit) =
      .ok utxos) :
    utxos.map BridgeUtxo.orderingKey =
        Paging.page (bridgePositions cfg db icpAddress nativeAsset) checkpoint.isBefore
          (fun key => key.1 ≤ toBlock) limit ∧
      ∀ utxo ∈ utxos, ∃ row ∈ bridgeLog cfg db icpAddress nativeAsset,
        utxo.orderingKey = row.1.orderingKey ∧ utxo.txHash = row.1.txHash := by
  simp only [getBridgeUtxosTx, hdb.arrange_bridgeRows order] at h
  constructor
  · rw [map_eq_of_mapM h fun row utxo hrow => (decodeBridgeUtxo_eq_ok hrow).1, Paging.page,
      bridgePositions, List.map_take, List.filter_map]
    rfl
  · intro utxo hutxo
    obtain ⟨row, hrow, hdecode⟩ := exists_of_mem_mapM h hutxo
    exact ⟨row, List.mem_of_mem_filter (List.mem_of_mem_take hrow),
      decodeBridgeUtxo_eq_ok hdecode⟩

/-! ## Locating a UTXO -/

/-- The transaction of a UTXO in the log is found at the position of the UTXO. -/
theorem Consistent.getBlockInfoForUtxo_of_mem (hdb : Consistent db) {row : BridgeGroup × ℕ}
    (h : row ∈ bridgeLog cfg db icpAddress nativeAsset) :
    getBlockInfoForUtxo db row.1.txHash =
      .ok (some ⟨row.1.blockNo, row.1.blockIndex⟩) := by
  have hgroup := (mem_groupSum.mp ((Arrangement.perm _ _).mem_iff.mp h)).1
  obtain ⟨joined, hjoined, hfst⟩ := List.mem_map.mp hgroup
  obtain ⟨tx, block, blockNo, out, tokens, asset, datum, hobserved, hjoinedGroup⟩ :=
    mem_bridgeRows hjoined
  rw [hfst] at hjoinedGroup
  have hhash : row.1.txHash = tx.hash := by rw [hjoinedGroup]; rfl
  have hindex : row.1.blockIndex = tx.blockIndex := by rw [hjoinedGroup]; rfl
  have hno : block.blockNo = some row.1.blockNo := by rw [hjoinedGroup]; exact hobserved.block_no
  have hrows : ∀ found, (found ∈ db.tx.flatMap fun tx => (db.block.filter fun block =>
      block.id = tx.blockId).flatMap fun block =>
        if tx.hash = row.1.txHash then [(block.blockNo, tx.blockIndex)] else []) ↔
      found = (some row.1.blockNo, row.1.blockIndex) := by
    intro found
    simp only [List.mem_flatMap, List.mem_filter, decide_eq_true_eq, List.mem_ite_nil_right,
      List.mem_singleton]
    constructor
    · rintro ⟨tx', htx', block', ⟨hblock', hid⟩, hhash', rfl⟩
      obtain rfl : tx' = tx := hdb.tx_hash _ htx' _ hobserved.tx_mem (hhash'.trans hhash)
      obtain rfl : block' = block :=
        hdb.block_id _ hblock' _ hobserved.block_mem (hid.trans hobserved.tx_block)
      rw [hno, hindex]
    · rintro rfl
      exact ⟨tx, hobserved.tx_mem, block, ⟨hobserved.block_mem, hobserved.tx_block.symm⟩,
        hhash.symm, by rw [hno, hindex]⟩
  simp only [getBlockInfoForUtxo, List.bind_eq_flatMap]
  split
  · rename_i hnil
    simp [hnil] at hrows
  · rename_i hcons
    simp only [hcons] at hrows
    obtain ⟨rfl, rfl⟩ := Prod.mk.inj ((hrows _).mp List.mem_cons_self)
    rfl

end PartnerChains.DbSync
