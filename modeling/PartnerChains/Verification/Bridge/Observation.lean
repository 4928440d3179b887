import PartnerChains.Verification.Bridge.Query

/-!
# What the bridge query makes of one transaction

Each output at the address with tokens gives one row: the tokens of that output and the sum of the
tokens of the outputs at the address that its transaction spends.
-/

namespace PartnerChains.DbSync

open Relational

variable {cfg : TxInConfiguration} {db : Database} {icpAddress : String} {nativeAsset : Asset}

/-- The rows that belong to a transaction with one output at the address. -/
structure Observed (db : Database) (icpAddress : String) (nativeAsset : Asset) (tx : TxRow)
    (block : BlockRow) (blockNo : ℕ) (out : TxOutRow) (tokens : MaTxOutRow)
    (asset : MultiAssetRow) (datum : Option DatumRow) : Prop
    extends output : ObservedOutput db icpAddress nativeAsset tx block blockNo out tokens asset
      datum where
  out_only : ∀ other ∈ db.txOut, other.txId = tx.id → other.address = icpAddress → other = out

variable {tx : TxRow} {block : BlockRow} {blockNo : ℕ} {out : TxOutRow} {tokens : MaTxOutRow}
  {asset : MultiAssetRow} {datum : Option DatumRow}

/-! ## Spent tokens -/

def tokenQuantity (db : Database) (asset : MultiAssetRow) (out : TxOutRow) : ℕ :=
  ((db.maTxOut.filter fun tokens => tokens.txOutId = out.id ∧ tokens.ident = asset.id).map
    (·.quantity)).sum

/-- The rows that meet a condition which only the spent output meets. -/
theorem SpentAt.filter_eq (keys : Keyed db) {spent : Option TxOutRow}
    (hspent : SpentAt cfg db icpAddress tx spent) {on : TxOutRow → Bool}
    (hon : ∀ row ∈ db.txOut, on row = true ↔ some row = spent) :
    db.txOut.filter on = spent.toList := by
  cases spent with
  | none => exact List.filter_eq_nil_iff.mpr fun row hrow h => by simp [hon row hrow] at h
  | some row =>
      have hrow := hspent.1 row rfl
      exact filter_eq_singleton keys.txOut_nodup hrow ((hon row hrow).mpr rfl)
        fun other hother h => Option.some.inj ((hon other hother).mp h)

def referredOutputs (db : Database) (icpAddress : String) (txIn : TxInRow) : List TxOutRow :=
  db.txOut.filter fun out =>
    txIn.txOutId = out.txId ∧ txIn.txOutIndex = out.index ∧ out.address = icpAddress

theorem sum_bridgeInputs_enabled (weight : TxOutRow → ℕ) (txId : ℕ) :
    ((bridgeInputs .enabled db icpAddress txId).map fun inputs => inputs.elim 0 weight).sum =
      (((db.txIn.filter fun txIn => txId = txIn.txInId).flatMap
        (referredOutputs db icpAddress)).map weight).sum := by
  simp only [bridgeInputs, List.bind_eq_flatMap]
  rw [sum_map_flatMap, sum_map_flatMap, ← sum_map_leftJoin]
  congr 2
  funext joined
  rw [sum_map_leftJoin]
  cases joined with
  | none => simp
  | some txIn => rfl

def spentOutputs (cfg : TxInConfiguration) (db : Database) (icpAddress : String) (tx : TxRow) :
    List TxOutRow :=
  db.txOut.filter fun out => Spends cfg db out tx ∧ out.address = icpAddress

theorem Keyed.referredOutputs_perm (keys : Keyed db) (tx : TxRow) :
    ((db.txIn.filter fun txIn => tx.id = txIn.txInId).flatMap
      (referredOutputs db icpAddress)).Perm (spentOutputs .enabled db icpAddress tx) := by
  have hinputs : (db.txIn.filter fun txIn => tx.id = txIn.txInId).flatMap
      (referredOutputs db icpAddress) =
      ((db.txIn.filter fun txIn => txIn.txInId = tx.id).flatMap (inputOutputs db)).filter
        fun out => out.address = icpAddress := by
    simp only [List.filter_flatMap, inputOutputs, List.filter_filter, eq_comm (a := tx.id)]
    congr 1
    funext txIn
    refine List.filter_congr fun out _ => ?_
    rw [Bool.eq_iff_iff]
    simp only [Bool.and_eq_true, decide_eq_true_eq]
    grind
  have hspent : spentOutputs .enabled db icpAddress tx =
      (db.txOut.filter fun out => Spends .enabled db out tx).filter
        fun out => out.address = icpAddress := by
    simp [spentOutputs, List.filter_filter, and_comm]
  rw [hinputs, hspent]
  exact (keys.inputOutputs_perm tx).filter _

/-- The inputs that are joined in, of which only the spent outputs count. -/
theorem Keyed.sum_bridgeInputs (keys : Keyed db) (tx : TxRow) (weight : TxOutRow → ℕ) :
    ((bridgeInputs cfg db icpAddress tx.id).map fun inputs => inputs.elim 0 weight).sum =
      ((spentOutputs cfg db icpAddress tx).map weight).sum := by
  cases cfg with
  | consumed => exact sum_map_leftJoin _ _ weight
  | enabled =>
      rw [sum_bridgeInputs_enabled]
      exact ((keys.referredOutputs_perm tx).map weight).sum_eq

theorem bridgeInputs_ne_nil (txId : ℕ) : bridgeInputs cfg db icpAddress txId ≠ [] := by
  cases cfg with
  | consumed => exact leftJoin_ne_nil _ _
  | enabled =>
      obtain ⟨joined, hjoined⟩ := List.exists_mem_of_ne_nil _
        (leftJoin_ne_nil db.txIn fun inputsJoin => decide (txId = inputsJoin.txInId))
      intro hnil
      exact leftJoin_ne_nil _ _ (List.flatMap_eq_nil_iff.mp hnil joined hjoined)

/-! ## The rows of an output -/

section Output

variable (keys : Keyed db)
  (h : ObservedOutput db icpAddress nativeAsset tx block blockNo out tokens asset datum)
include keys h

theorem ObservedOutput.datumRows_eq :
    (leftJoin db.datum fun datum => some datum.hash = out.dataHash) = [datum] := by
  cases datum with
  | none => exact leftJoin_eq_none (none_mem_leftJoin.mp h.datum_mem)
  | some datum =>
      obtain ⟨hmem, hhash⟩ := some_mem_leftJoin.mp h.datum_mem
      refine leftJoin_eq_singleton keys.datum_nodup hmem hhash fun other hother hother' => ?_
      rw [decide_eq_true_iff] at hhash hother'
      exact keys.datum_hash _ hother _ hmem (Option.some.inj (hother'.trans hhash.symm))

theorem ObservedOutput.tokens_unique {other : MaTxOutRow} (hother : other ∈ db.maTxOut)
    (hout : other.txOutId = out.id) {asset' : MultiAssetRow} (hasset' : asset' ∈ db.multiAsset)
    (hident : asset'.id = other.ident) (hpolicy : asset'.policy = nativeAsset.policyId)
    (hname : asset'.name = nativeAsset.assetName) : other = tokens := by
  obtain rfl : asset' = asset := keys.multiAsset_name _ hasset' _ h.asset_mem
    (hpolicy.trans h.asset_policy.symm) (hname.trans h.asset_name.symm)
  exact keys.maTxOut_asset _ hother _ h.tokens_mem (hout.trans h.tokens_out.symm)
    (hident.symm.trans h.tokens_asset)

/-- A row for each input and each of its tokens. -/
theorem ObservedOutput.outputRows_eq :
    outputRows cfg db icpAddress nativeAsset (fun _ => true) out =
      (bridgeInputs cfg db icpAddress tx.id).flatMap fun inputs =>
        (leftJoin db.maTxOut fun tokens => inputs.any fun inputs =>
          tokens.txOutId = inputs.id ∧ tokens.ident = asset.id).map fun inputTokens =>
            (observedGroup tx blockNo out tokens datum, inputTokens.map (·.quantity)) := by
  have htx : (db.tx.filter fun tx => out.txId = tx.id) = [tx] := by
    refine filter_eq_singleton keys.tx_nodup h.tx_mem (by simp [h.out_tx])
      fun other hother hid => ?_
    exact keys.tx_id _ hother _ h.tx_mem ((of_decide_eq_true hid).symm.trans h.out_tx)
  have hblock : (db.block.filter fun block => tx.blockId = block.id) = [block] := by
    refine filter_eq_singleton keys.block_nodup h.block_mem (by simp [h.tx_block])
      fun other hother hid => ?_
    exact keys.block_id _ hother _ h.block_mem ((of_decide_eq_true hid).symm.trans h.tx_block)
  have hasset : (db.multiAsset.filter fun asset => asset.id = tokens.ident) = [asset] := by
    refine filter_eq_singleton keys.multiAsset_nodup h.asset_mem (by simp [h.tokens_asset])
      fun other hother hid => ?_
    exact keys.multiAsset_id _ hother _ h.asset_mem
      ((of_decide_eq_true hid).trans h.tokens_asset.symm)
  have htokens : tokens ∈ db.maTxOut.filter fun tokens => tokens.txOutId = out.id := by
    simpa using ⟨h.tokens_mem, h.tokens_out⟩
  simp only [outputRows, List.bind_eq_flatMap, htx, hblock, List.flatMap_singleton]
  rw [flatMap_eq_of_unique (keys.maTxOut_nodup.filter _) htokens]
  · simp only [hasset, h.datumRows_eq keys, List.flatMap_singleton, h.block_no, h.asset_policy,
      h.asset_name, h.out_address, and_self, if_true, List.map_eq_flatMap]
    rfl
  · intro other hother hne
    obtain ⟨hmem, hout⟩ := List.mem_filter.mp hother
    simp only [List.flatMap_eq_nil_iff, h.block_no]
    intro asset' hasset' _ _ _ _ _ _
    obtain ⟨hmem', hident⟩ := List.mem_filter.mp hasset'
    refine if_neg fun hcondition => hne ?_
    exact h.tokens_unique keys hmem (of_decide_eq_true hout) hmem' (of_decide_eq_true hident)
      hcondition.1 hcondition.2.1

theorem ObservedOutput.group_eq {row : BridgeGroup × Option ℕ}
    (hrow : row ∈ outputRows cfg db icpAddress nativeAsset (fun _ => true) out) :
    row.1 = observedGroup tx blockNo out tokens datum := by
  rw [h.outputRows_eq keys] at hrow
  obtain ⟨inputs, -, hrow⟩ := List.mem_flatMap.mp hrow
  obtain ⟨inputTokens, -, rfl⟩ := List.mem_map.mp hrow
  rfl

theorem ObservedOutput.outputRows_ne_nil :
    outputRows cfg db icpAddress nativeAsset (fun _ => true) out ≠ [] := by
  rw [h.outputRows_eq keys]
  obtain ⟨inputs, hinputs⟩ := List.exists_mem_of_ne_nil _ (bridgeInputs_ne_nil tx.id)
  intro hnil
  have hnone := List.flatMap_eq_nil_iff.mp hnil inputs hinputs
  exact leftJoin_ne_nil _ _ (List.map_eq_nil_iff.mp hnone)

theorem ObservedOutput.sum_outputRows :
    ((outputRows cfg db icpAddress nativeAsset (fun _ => true) out).map
        fun row => row.2.elim 0 id).sum =
      ((spentOutputs cfg db icpAddress tx).map (tokenQuantity db asset)).sum := by
  rw [h.outputRows_eq keys, sum_map_flatMap, ← keys.sum_bridgeInputs tx]
  congr 2
  funext inputs
  have helim : ((fun row : BridgeGroup × Option ℕ => row.2.elim 0 id) ∘
      fun inputTokens : Option MaTxOutRow => (observedGroup tx blockNo out tokens datum,
        inputTokens.map (·.quantity))) = fun inputTokens => inputTokens.elim 0 (·.quantity) := by
    funext inputTokens
    cases inputTokens <;> rfl
  rw [List.map_map, helim, sum_map_leftJoin]
  cases inputs with
  | none => simp
  | some row => simp [tokenQuantity]

end Output

/-! ## The row of the transaction -/

theorem Observed.outputRows_other (keys : Keyed db)
    (h : Observed db icpAddress nativeAsset tx block blockNo out tokens asset datum)
    {other : TxOutRow} (hother : other ∈ db.txOut) {row : BridgeGroup × Option ℕ}
    (hrow : row ∈ outputRows cfg db icpAddress nativeAsset (fun _ => true) other)
    (hhash : row.1.txHash = tx.hash) : other = out := by
  obtain ⟨tx', block', blockNo', tokens', asset', datum', hobserved, hgroup⟩ :=
    exists_observedOutput hother hrow
  rw [hgroup] at hhash
  obtain rfl : tx' = tx := keys.tx_hash _ hobserved.tx_mem _ h.tx_mem hhash
  exact h.out_only other hother hobserved.out_tx hobserved.out_address

theorem Observed.bridgeRows_filter (keys : Keyed db)
    (h : Observed db icpAddress nativeAsset tx block blockNo out tokens asset datum) :
    ((bridgeRows cfg db icpAddress nativeAsset fun _ => true).filter
        fun row => decide (row.1.txHash = tx.hash)) =
      outputRows cfg db icpAddress nativeAsset (fun _ => true) out := by
  rw [bridgeRows, List.filter_flatMap,
    flatMap_eq_of_unique keys.txOut_nodup h.out_mem]
  · rw [List.filter_eq_self]
    intro row hrow
    rw [h.output.group_eq keys hrow, decide_eq_true_iff]
    rfl
  · intro other hother hne
    rw [List.filter_eq_nil_iff]
    intro row hrow hhash
    exact hne (h.outputRows_other keys hother hrow (by simpa using hhash))

theorem Observed.bridgeLog_filter (keys : Keyed db)
    (h : Observed db icpAddress nativeAsset tx block blockNo out tokens asset datum)
    {spent : Option TxOutRow} (hspent : SpentAt cfg db icpAddress tx spent) :
    ((bridgeLog cfg db icpAddress nativeAsset).filter
        fun row => decide (row.1.txHash = tx.hash)) =
      [(observedGroup tx blockNo out tokens datum,
        spent.elim 0 (tokenQuantity db asset))] := by
  have hsum : ((spentOutputs cfg db icpAddress tx).map (tokenQuantity db asset)).sum =
      spent.elim 0 (tokenQuantity db asset) := by
    rw [spentOutputs, hspent.filter_eq keys (by simpa using hspent.2)]
    cases spent <;> simp
  refine List.perm_singleton.mp ?_
  refine ((Arrangement.perm _ _).filter _).trans ?_
  refine (groupSum_filter_perm _ fun group : BridgeGroup =>
    decide (group.txHash = tx.hash)).symm.trans ?_
  rw [h.bridgeRows_filter keys, groupSum_eq_singleton (h.output.outputRows_ne_nil keys)
    (fun row hrow => h.output.group_eq keys hrow), h.output.sum_outputRows keys, hsum]

end PartnerChains.DbSync
