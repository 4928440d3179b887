import PartnerChains.Algorithm.RegistrationUtxos
import PartnerChains.Model.StoredHistory

/-!
# Observations do not depend on how inputs are linked

The queries for the two kinds of databases join differently shaped tables. On databases of one
history they join the same rows, so that what one may answer, the other may answer too.
-/

namespace PartnerChains.DbSync

open Relational

variable {ids : Numbering} {enabled consumed : Database} {out out' : TxOutRow}

/-! ## Spending transactions -/

theorem SameHistory.consumingTx (keys : Keyed enabled) (same : SameHistory ids enabled consumed)
    (hout : SameOutput ids enabled.txIn out out') :
    Corresponds (fun spent spent' => spent.1 = spent'.1 ∧
        Option.Rel (fun row row' => row' = TxRow.renumber ids row) spent.2 spent'.2)
      (consumingTx .enabled enabled out) (consumingTx .consumed consumed out') := by
  by_cases hspent : ∃ txIn ∈ enabled.txIn, out.txId = txIn.txOutId ∧ out.index = txIn.txOutIndex
  · obtain ⟨txIn, htxIn, hlink⟩ := hspent
    have hconsumed : out'.consumedByTxId = some (ids.tx txIn.txInId) :=
      (hout.consumedByTxId _).mpr ⟨txIn, htxIn, rfl, hlink⟩
    have hjoin : (leftJoin enabled.txIn fun txIn =>
        out.txId = txIn.txOutId ∧ out.index = txIn.txOutIndex) = [some txIn] := by
      refine leftJoin_eq_singleton keys.txIn_nodup htxIn (decide_eq_true hlink) ?_
      intro other hother hlink'
      obtain ⟨hid, hindex⟩ := of_decide_eq_true hlink'
      exact keys.txIn_output _ hother _ htxIn (hid.symm.trans hlink.1) (hindex.symm.trans hlink.2)
    simp only [DbSync.consumingTx, List.bind_eq_flatMap, hjoin, hconsumed, List.flatMap_singleton,
      ← List.map_eq_flatMap]
    refine Corresponds.map (same.tx.leftJoin ?_) fun row row' hrow => ⟨rfl, hrow⟩
    rintro tx - _ - rfl
    simp [TxRow.renumber, ids.tx_injective.eq_iff]
  · have hconsumed : out'.consumedByTxId = none := by
      refine Option.eq_none_iff_forall_ne_some.mpr fun txId hsome => hspent ?_
      obtain ⟨txIn, htxIn, -, hlink⟩ := (hout.consumedByTxId txId).mp hsome
      exact ⟨txIn, htxIn, hlink⟩
    have hjoin : (leftJoin enabled.txIn fun txIn =>
        out.txId = txIn.txOutId ∧ out.index = txIn.txOutIndex) = [none] :=
      leftJoin_eq_none fun txIn htxIn => decide_eq_false fun hlink => hspent ⟨txIn, htxIn, hlink⟩
    simp only [DbSync.consumingTx, List.bind_eq_flatMap, hjoin, hconsumed, List.flatMap_singleton,
      ← List.map_eq_flatMap]
    refine Corresponds.map (same.tx.leftJoin ?_) fun row row' hrow => ⟨rfl, hrow⟩
    simp

/-! ## Joins -/

theorem eq_map_of_rel {α : Type*} {f : α → α} {row row' : Option α}
    (h : Option.Rel (fun row row' => row' = f row) row row') : row' = row.map f := by
  cases h with
  | none => rfl
  | some hrow => rw [hrow, Option.map_some]

theorem bind_blockNo_renumber (block : Option BlockRow) :
    ((block.map (BlockRow.renumber ids)).bind (·.blockNo)) = block.bind (·.blockNo) := by
  cases block <;> rfl

theorem SameHistory.consumingBlock_perm {γ : Type*} (same : SameHistory ids enabled consumed)
    (tx : Option TxRow) {f g : Option BlockRow → List γ}
    (hfg : ∀ block, (f block).Perm (g (block.map (BlockRow.renumber ids)))) :
    ((consumingBlock enabled tx).flatMap f).Perm
      ((consumingBlock consumed (tx.map (TxRow.renumber ids))).flatMap g) := by
  refine Corresponds.flatMap_perm (same.block.leftJoin ?_) fun block _ block' _ hblock => ?_
  · rintro block - _ - rfl
    cases tx <;> simp [TxRow.renumber, BlockRow.renumber, ids.block_injective.eq_iff]
  · rw [eq_map_of_rel hblock]
    exact hfg block

section Joins

variable {γ : Type*} (same : SameHistory ids enabled consumed)
  (hout : SameOutput ids enabled.txIn out out')

include same hout

theorem SameHistory.origin_perm {f g : TxRow → BlockRow → List γ}
    (hfg : ∀ tx block, (f tx block).Perm (g (tx.renumber ids) (block.renumber ids))) :
    ((enabled.tx.filter fun tx => out.txId = tx.id).flatMap fun tx =>
        (enabled.block.filter fun block => tx.blockId = block.id).flatMap (f tx)).Perm
      ((consumed.tx.filter fun tx => out'.txId = tx.id).flatMap fun tx =>
        (consumed.block.filter fun block => tx.blockId = block.id).flatMap (g tx)) := by
  refine (same.tx.filter ?_).flatMap_perm ?_
  · rintro tx - _ - rfl
    simp [hout.txId, TxRow.renumber, ids.tx_injective.eq_iff]
  · rintro tx - _ - rfl
    refine (same.block.filter ?_).flatMap_perm ?_
    · rintro block - _ - rfl
      simp [TxRow.renumber, BlockRow.renumber, ids.block_injective.eq_iff]
    · rintro block - _ - rfl
      exact hfg tx block

theorem SameHistory.tokens_perm {f g : DatumRow → MultiAssetRow → List γ}
    (hfg : ∀ datum asset, (f datum asset).Perm (g datum (asset.renumber ids))) :
    ((enabled.datum.filter fun datum => out.dataHash = some datum.hash).flatMap fun datum =>
        (enabled.maTxOut.filter fun tokens => out.id = tokens.txOutId).flatMap fun tokens =>
          (enabled.multiAsset.filter fun asset => asset.id = tokens.ident).flatMap (f datum)).Perm
      ((consumed.datum.filter fun datum => out'.dataHash = some datum.hash).flatMap fun datum =>
        (consumed.maTxOut.filter fun tokens => out'.id = tokens.txOutId).flatMap fun tokens =>
          (consumed.multiAsset.filter fun asset => asset.id = tokens.ident).flatMap
            (g datum)) := by
  rw [hout.dataHash]
  refine (same.datum.filter _).flatMap fun datum _ => ?_
  refine (same.maTxOut.filter ?_).flatMap_perm ?_
  · rintro tokens - _ - rfl
    simp [hout.id, MaTxOutRow.renumber, ids.txOut_injective.eq_iff]
  · rintro tokens - _ - rfl
    refine (same.multiAsset.filter ?_).flatMap_perm ?_
    · rintro asset - _ - rfl
      simp [MaTxOutRow.renumber, MultiAssetRow.renumber, ids.asset_injective.eq_iff]
    · rintro asset - _ - rfl
      exact hfg datum asset

theorem SameHistory.consumingTx_perm (keys : Keyed enabled) {f g : Bool × Option TxRow → List γ}
    (hfg : ∀ isSpent tx, (f (isSpent, tx)).Perm (g (isSpent, tx.map (TxRow.renumber ids)))) :
    ((DbSync.consumingTx .enabled enabled out).flatMap f).Perm
      ((DbSync.consumingTx .consumed consumed out').flatMap g) := by
  refine (same.consumingTx keys hout).flatMap_perm ?_
  rintro ⟨isSpent, tx⟩ - ⟨_, tx'⟩ - ⟨rfl, htx⟩
  obtain rfl : tx' = tx.map (TxRow.renumber ids) := eq_map_of_rel htx
  exact hfg isSpent tx

end Joins

/-! ## Governed map -/

section GovernedMap

variable (same : SameHistory ids enabled consumed) (address : String) (asset : Asset)

include same

theorem SameHistory.createdRows_perm (afterBlock : Option ℕ) (toBlock : ℕ) :
    (createdRows enabled address afterBlock toBlock asset).Perm
      (createdRows consumed address afterBlock toBlock asset) := by
  refine same.txOut.flatMap_perm fun out _ out' _ hout => ?_
  refine same.origin_perm hout fun tx block => ?_
  refine same.tokens_perm hout fun datum row => ?_
  rw [hout.address]
  exact .refl _

theorem SameHistory.spentRows_perm (keys : Keyed enabled) (afterBlock : Option ℕ) (toBlock : ℕ) :
    (spentRows .enabled enabled address afterBlock toBlock asset).Perm
      (spentRows .consumed consumed address afterBlock toBlock asset) := by
  refine same.txOut.flatMap_perm fun out _ out' _ hout => ?_
  refine same.consumingTx_perm hout keys fun isSpent tx => ?_
  refine same.consumingBlock_perm tx fun block => ?_
  refine same.tokens_perm hout fun datum row => ?_
  rw [hout.address, bind_blockNo_renumber]
  cases tx with
  | none => exact .refl _
  | some tx => cases block.bind (·.blockNo) <;> exact .refl _

theorem SameHistory.governedMapChangeRows_perm (keys : Keyed enabled) (afterBlock : Option ℕ)
    (toBlock : ℕ) :
    (governedMapChangeRows .enabled enabled address afterBlock toBlock asset).Perm
      (governedMapChangeRows .consumed consumed address afterBlock toBlock asset) :=
  ((same.createdRows_perm address asset afterBlock toBlock).append
    (same.spentRows_perm address asset keys afterBlock toBlock)).dedup

theorem SameHistory.datumRowsAt_perm (keys : Keyed enabled) (block : ℕ) :
    (datumRowsAt .enabled enabled address block asset).Perm
      (datumRowsAt .consumed consumed address block asset) := by
  refine same.txOut.flatMap_perm fun out _ out' _ hout => ?_
  refine same.origin_perm hout fun tx origin => ?_
  refine same.consumingTx_perm hout keys fun isSpent spender => ?_
  refine same.consumingBlock_perm spender fun consuming => ?_
  refine same.tokens_perm hout fun datum row => ?_
  rw [hout.address, bind_blockNo_renumber]
  exact .refl _

end GovernedMap

/-! ## Inputs of a transaction -/

/-- The outputs that an input refers to, joined in: there is one, so no null row is joined. -/
theorem SameHistory.leftJoin_txOut (same : SameHistory ids enabled consumed) {txIn : TxInRow}
    (htxIn : txIn ∈ enabled.txIn) :
    (leftJoin enabled.txOut fun out => (some txIn).any fun txIn =>
      out.txId = txIn.txOutId ∧ txIn.txOutIndex = out.index) =
        (inputOutputs enabled txIn).map some := by
  have hon : (fun out : TxOutRow => (some txIn).any fun txIn =>
      out.txId = txIn.txOutId ∧ txIn.txOutIndex = out.index) =
      fun out : TxOutRow => decide (out.txId = txIn.txOutId ∧ out.index = txIn.txOutIndex) := by
    funext out
    simp [eq_comm]
  obtain ⟨out, hout, hlink⟩ := same.txIn_output txIn htxIn
  rw [hon, inputOutputs]
  exact leftJoin_eq_map (List.ne_nil_of_mem (List.mem_filter.mpr ⟨hout, decide_eq_true hlink⟩))

/-- The inputs of a transaction, joined with the outputs that they refer to, are the outputs that
it spends. -/
theorem SameHistory.inputs_perm {γ : Type*} (keys : Keyed enabled)
    (same : SameHistory ids enabled consumed) (tx : TxRow)
    (f : Option ℕ → Option TxOutRow → List γ) :
    ((leftJoin enabled.txIn fun txIn => txIn.txInId = tx.id).flatMap fun txIn =>
        (leftJoin enabled.txOut fun out => txIn.any fun txIn =>
          out.txId = txIn.txOutId ∧ txIn.txOutIndex = out.index).flatMap
            (f (txIn.map (·.txOutIndex)))).Perm
      ((leftJoin enabled.txOut fun out => Spends .enabled enabled out tx).flatMap fun out =>
        f (out.map (·.index)) out) := by
  have hspent := keys.inputOutputs_perm tx
  by_cases hinputs : (enabled.txIn.filter fun txIn => txIn.txInId = tx.id) = []
  · have hnone : (enabled.txOut.filter fun out => Spends .enabled enabled out tx) = [] := by
      rw [hinputs] at hspent
      exact List.nil_perm.mp hspent
    have hout : (leftJoin enabled.txOut fun out => (none : Option TxInRow).any fun txIn =>
        out.txId = txIn.txOutId ∧ txIn.txOutIndex = out.index) = [none] :=
      leftJoin_eq_none fun _ _ => rfl
    rw [leftJoin_of_filter_eq_nil hinputs,
      leftJoin_of_filter_eq_nil hnone, List.flatMap_singleton, hout,
      List.flatMap_singleton, List.flatMap_singleton]
    exact .refl _
  · obtain ⟨txIn, htxIn⟩ := List.exists_mem_of_ne_nil _ hinputs
    obtain ⟨out, hout, hlink⟩ := same.txIn_output txIn (List.mem_of_mem_filter htxIn)
    have hsome : (enabled.txOut.filter fun out => Spends .enabled enabled out tx) ≠ [] := by
      have hmem : out ∈ inputOutputs enabled txIn :=
        List.mem_filter.mpr ⟨hout, decide_eq_true hlink⟩
      exact List.ne_nil_of_mem (hspent.mem_iff.mp (List.mem_flatMap.mpr ⟨txIn, htxIn, hmem⟩))
    rw [leftJoin_eq_map hinputs, leftJoin_eq_map hsome, List.flatMap_map, List.flatMap_map]
    have hjoined : ∀ txIn ∈ enabled.txIn.filter fun txIn => txIn.txInId = tx.id,
        ((leftJoin enabled.txOut fun out => (some txIn).any fun txIn =>
          out.txId = txIn.txOutId ∧ txIn.txOutIndex = out.index).flatMap
            (f ((some txIn).map (·.txOutIndex)))) =
          (inputOutputs enabled txIn).flatMap fun out => f (some out.index) (some out) := by
      intro txIn htxIn
      rw [same.leftJoin_txOut (List.mem_of_mem_filter htxIn), List.flatMap_map]
      refine List.flatMap_congr fun out hout => ?_
      rw [(of_decide_eq_true (List.mem_filter.mp hout).2).2]
      rfl
    rw [List.flatMap_congr hjoined, ← List.flatMap_assoc]
    exact hspent.flatMap_right _

end PartnerChains.DbSync

namespace PartnerChains.Candidates

open DbSync Relational

variable {ids : Numbering} {enabled consumed : Database}

/-! ## Registrations -/

theorem consumesRows_perm (keys : Keyed enabled) (same : SameHistory ids enabled consumed)
    (tx : TxRow) :
    (consumesRows .enabled enabled tx).Perm
      (consumesRows .consumed consumed (tx.renumber ids)) := by
  refine (same.inputs_perm keys tx fun index out =>
    (leftJoin enabled.tx fun tx => out.any fun out => tx.id = out.txId).flatMap fun tx =>
      [inputText tx index]).trans ?_
  refine Corresponds.flatMap_perm (same.txOut.leftJoin ?_) fun out _ out' _ hout => ?_
  · intro out _ out' _ hout
    rw [decide_eq_decide, hout.consumedByTxId]
    refine exists_congr fun txIn => and_congr_right fun _ => and_congr_left fun _ => ?_
    exact eq_comm.trans ids.tx_injective.eq_iff.symm
  · refine Corresponds.flatMap_perm (same.tx.leftJoin ?_) fun tx _ tx' _ htx => ?_
    · rintro tx - _ - rfl
      cases hout with
      | none => rfl
      | some hout => simp [hout.txId, TxRow.renumber, ids.tx_injective.eq_iff]
    · obtain rfl : tx' = tx.map (TxRow.renumber ids) := eq_map_of_rel htx
      cases hout with
      | none => cases tx <;> exact .refl _
      | some hout =>
          rw [Option.map_some, Option.map_some, hout.index]
          cases tx <;> exact .refl _

theorem utxoRows_perm (keys : Keyed enabled) (same : SameHistory ids enabled consumed)
    (address : String) (block : ℕ) :
    (utxoRows .enabled enabled address block).Perm
      (utxoRows .consumed consumed address block) := by
  refine same.txOut.flatMap_perm fun out _ out' _ hout => ?_
  refine same.origin_perm hout fun tx origin => ?_
  refine same.consumingTx_perm hout keys fun isSpent spender => ?_
  refine same.consumingBlock_perm spender fun consuming => ?_
  refine (consumesRows_perm keys same tx).flatMap fun input _ => ?_
  refine Corresponds.flatMap_perm ((Corresponds.of_perm same.datum).leftJoin ?_) ?_
  · rintro datum - _ - rfl
    rw [hout.dataHash]
  · intro datum _ datum' _ hdatum
    obtain rfl : datum' = datum := by
      cases hdatum with
      | none => rfl
      | some hdatum => rw [hdatum]
    rw [hout.address, hout.index, bind_blockNo_renumber]
    exact .refl _

theorem range_getUtxosForAddress (fromHex : String → Option ByteString) {db db' : Database}
    {cfg cfg' : TxInConfiguration} {address : String} {block : ℕ}
    (hperm : (utxoRows cfg db address block).Perm (utxoRows cfg' db' address block)) :
    (Set.range fun order => getUtxosForAddress fromHex order db address block cfg) =
      Set.range fun order => getUtxosForAddress fromHex order db' address block cfg' := by
  simp only [getUtxosForAddress_eq]
  refine Set.Subset.antisymm ?_ ?_
  · rintro _ ⟨order, rfl⟩
    obtain ⟨joined, hjoined⟩ := order.joined.exists_arrange_eq hperm
    exact ⟨⟨joined, order.groups⟩, by simp only [hjoined]⟩
  · rintro _ ⟨order, rfl⟩
    obtain ⟨joined, hjoined⟩ := order.joined.exists_arrange_eq hperm.symm
    exact ⟨⟨joined, order.groups⟩, by simp only [hjoined]⟩

/-- What the one database may answer the other may answer too: registrations at an address, the
state of the governed map and its changes. -/
theorem observations_agree_across_input_modes (fromHex : String → Option ByteString)
    (keys : Keyed enabled) (same : SameHistory ids enabled consumed) (address : String)
    (asset : Asset) (block : ℕ) (afterBlock : Option ℕ) (toBlock : ℕ) :
    (Set.range fun order => getUtxosForAddress fromHex order enabled address block .enabled) =
        (Set.range fun order =>
          getUtxosForAddress fromHex order consumed address block .consumed) ∧
      (Set.range fun order =>
          getDatumsAtAddressWithToken order enabled address block asset .enabled) =
        (Set.range fun order =>
          getDatumsAtAddressWithToken order consumed address block asset .consumed) ∧
      (Set.range fun order =>
          getGovernedMapChanges order enabled address afterBlock toBlock asset .enabled) =
        (Set.range fun order =>
          getGovernedMapChanges order consumed address afterBlock toBlock asset .consumed) := by
  refine ⟨?_, ?_, ?_⟩
  · exact range_getUtxosForAddress fromHex (utxoRows_perm keys same address block)
  · simp only [getDatumsAtAddressWithToken_eq]
    exact Arrangement.range_eq_of_perm (same.datumRowsAt_perm address asset keys block) _
  · simp only [getGovernedMapChanges_eq]
    exact Arrangement.range_eq_of_perm
      (same.governedMapChangeRows_perm address asset keys afterBlock toBlock) _

/-! ### An entry that is replaced -/

def readHexDigits : List Char → Option ByteString
  | [] => some []
  | high :: low :: digits => do
      let value ← "0123456789abcdef".toList.idxOf? high
      let value' ← "0123456789abcdef".toList.idxOf? low
      let bytes ← readHexDigits digits
      some (.ofNat (16 * value + value') :: bytes)
  | _ => none

/-- A transaction makes an output with a token and a datum, and another one replaces it. -/
def linkedDatabase : Database where
  block := [⟨1, Bytes.filled 32 1, some 5, some 0, some 100, 2000⟩,
    ⟨2, Bytes.filled 32 4, some 6, some 0, some 120, 2400⟩]
  tx := [⟨1, Bytes.filled 32 2, 1, 0⟩, ⟨2, Bytes.filled 32 3, 2, 0⟩]
  txOut := [⟨1, 1, 0, "addr", some (.filled 32 7), none⟩,
    ⟨2, 2, 0, "addr", some (.filled 32 8), none⟩]
  txIn := [⟨1, 2, 1, 0⟩]
  maTxOut := [⟨1, 1, 1⟩, ⟨1, 2, 1⟩]
  multiAsset := [⟨1, .filled 28 3, []⟩]
  datum := [⟨.filled 32 7, .data (.integer 7)⟩, ⟨.filled 32 8, .data (.integer 8)⟩]

/-- The same history, with other identifiers and in another order. -/
def markedDatabase : Database where
  block := linkedDatabase.block
  tx := [⟨12, Bytes.filled 32 3, 2, 0⟩, ⟨11, Bytes.filled 32 2, 1, 0⟩]
  txOut := [⟨1, 11, 0, "addr", some (.filled 32 7), some 12⟩,
    ⟨2, 12, 0, "addr", some (.filled 32 8), none⟩]
  txIn := []
  maTxOut := linkedDatabase.maTxOut
  multiAsset := linkedDatabase.multiAsset
  datum := linkedDatabase.datum

/-- The second output is found with its input, it is the state of the map, and both outputs are
changes of the map. -/
theorem observations_agree_across_input_modes_renumbered :
    (∃ order, getUtxosForAddress (readHexDigits ·.toList) order markedDatabase "addr" 7
        .consumed = .ok [⟨⟨.filled 32 3, 0⟩, 6, 120, 0, 0, "addr", some (.integer 8),
          [⟨.filled 32 2, 0⟩]⟩]) ∧
      (∃ order, getDatumsAtAddressWithToken order markedDatabase "addr" 7 ⟨.filled 28 3, []⟩
        .consumed = .ok [.integer 8]) ∧
      ∃ order, getGovernedMapChanges order markedDatabase "addr" none 7 ⟨.filled 28 3, []⟩
        .consumed = .ok [⟨.integer 7, 5, 0, .create⟩, ⟨.integer 7, 6, 0, .spend⟩,
          ⟨.integer 8, 6, 0, .create⟩] := by
  have keys : Keyed linkedDatabase := by
    refine ⟨?_, ?_, ?_, ?_, ?_, ?_, ?_, ?_, ?_, ?_, ?_, ?_⟩
    · constructor <;> decide
    all_goals decide
  let ids : Numbering := ⟨id, (· + 10), id, id, Function.injective_id, add_left_injective 10,
    Function.injective_id, Function.injective_id⟩
  have same : SameHistory ids linkedDatabase markedDatabase := by
    refine ⟨?_, ?_, ?_, ?_, ?_, .refl _, by decide⟩
    · exact ⟨_, .cons rfl (.cons rfl .nil), .refl _⟩
    · exact ⟨_, .cons rfl (.cons rfl .nil), .swap _ _ _⟩
    · refine ⟨_, .cons ?_ (.cons ?_ .nil), .refl _⟩
      · exact ⟨rfl, rfl, rfl, rfl, rfl, by simp [linkedDatabase, ids, eq_comm]⟩
      · exact ⟨rfl, rfl, rfl, rfl, rfl, by simp [linkedDatabase, ids]⟩
    · exact ⟨_, .cons rfl (.cons rfl .nil), .refl _⟩
    · exact ⟨_, .cons rfl .nil, .refl _⟩
  obtain ⟨hutxos, hdatums, hchanges⟩ := observations_agree_across_input_modes
    (readHexDigits ·.toList) keys same "addr" ⟨.filled 28 3, []⟩ 7 none 7
  refine ⟨?_, ?_, ?_⟩
  · refine (Set.ext_iff.mp hutxos _).mp ⟨⟨.stable _, .stable _⟩, ?_⟩
    decide +kernel
  · refine (Set.ext_iff.mp hdatums _).mp ⟨.stable _, ?_⟩
    decide +kernel
  · refine (Set.ext_iff.mp hchanges _).mp ⟨.stable _, ?_⟩
    decide +kernel

end PartnerChains.Candidates
