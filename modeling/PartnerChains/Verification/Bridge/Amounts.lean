import PartnerChains.Verification.Bridge.Observation

/-!
# The transfers of a transaction add up

The tokens that a transaction spends at the address are subtracted from each of its outputs there.
The sum of the differences is the difference of the sums as long as there is only one output to
subtract from.
-/

namespace PartnerChains.DbSync

open Relational Fallible

variable {cfg : TxInConfiguration} {db : Database} {icpAddress : String} {nativeAsset : Asset}
  {tx : TxRow} {block : BlockRow} {blockNo : ℕ} {out : TxOutRow} {tokens : MaTxOutRow}
  {asset : MultiAssetRow} {datum : Option DatumRow}

/-! ## Tokens that are created and spent -/

section Tokens

variable (cfg db icpAddress nativeAsset)

/-- The row of an output is about the native token. -/
def IsToken (out : TxOutRow) (tokens : MaTxOutRow) : Prop :=
  tokens.txOutId = out.id ∧ ∃ asset ∈ db.multiAsset, asset.id = tokens.ident ∧
    asset.policy = nativeAsset.policyId ∧ asset.name = nativeAsset.assetName

instance : Decidable (IsToken db nativeAsset out tokens) :=
  inferInstanceAs (Decidable (_ ∧ ∃ asset ∈ db.multiAsset, _))

def heldTokens (out : TxOutRow) : ℕ :=
  ((db.maTxOut.filter (IsToken db nativeAsset out)).map (·.quantity)).sum

/-- The outputs of a transaction at the address. -/
def createdOutputs (tx : TxRow) : List TxOutRow :=
  db.txOut.filter fun out => out.txId = tx.id ∧ out.address = icpAddress

def createdTokens (tx : TxRow) : ℕ :=
  ((createdOutputs db icpAddress tx).map (heldTokens db nativeAsset)).sum

def spentTokens (tx : TxRow) : ℕ :=
  ((spentOutputs cfg db icpAddress tx).map (heldTokens db nativeAsset)).sum

end Tokens

theorem heldTokens_eq_tokenQuantity (keys : Keyed db) (hasset : asset ∈ db.multiAsset)
    (hpolicy : asset.policy = nativeAsset.policyId) (hname : asset.name = nativeAsset.assetName)
    (out : TxOutRow) : heldTokens db nativeAsset out = tokenQuantity db asset out := by
  rw [heldTokens, tokenQuantity]
  congr 2
  refine List.filter_congr fun tokens _ => decide_eq_decide.mpr (and_congr_right fun _ => ?_)
  constructor
  · rintro ⟨other, hother, hident, hpolicy', hname'⟩
    obtain rfl := keys.multiAsset_name _ hother _ hasset (hpolicy'.trans hpolicy.symm)
      (hname'.trans hname.symm)
    exact hident.symm
  · intro hident
    exact ⟨asset, hasset, hident.symm, hpolicy, hname⟩

theorem ObservedOutput.isToken
    (h : ObservedOutput db icpAddress nativeAsset tx block blockNo out tokens asset datum) :
    IsToken db nativeAsset out tokens :=
  ⟨h.tokens_out, asset, h.asset_mem, h.tokens_asset, h.asset_policy, h.asset_name⟩

section Output

variable (keys : Keyed db)
  (h : ObservedOutput db icpAddress nativeAsset tx block blockNo out tokens asset datum)
include keys h

theorem ObservedOutput.heldTokens_eq :
    heldTokens db nativeAsset out = tokens.quantity := by
  have honly : db.maTxOut.filter (IsToken db nativeAsset out) = [tokens] := by
    refine filter_eq_singleton keys.maTxOut_nodup h.tokens_mem (decide_eq_true h.isToken)
      fun other hother htoken => ?_
    obtain ⟨hout, asset', hasset', hident, hpolicy, hname⟩ := of_decide_eq_true htoken
    exact h.tokens_unique keys hother hout hasset' hident hpolicy hname
  rw [heldTokens, honly, List.map_singleton, List.sum_singleton]

theorem ObservedOutput.spentTokens_eq :
    ((spentOutputs cfg db icpAddress tx).map (tokenQuantity db asset)).sum =
      spentTokens cfg db icpAddress nativeAsset tx := by
  rw [spentTokens, ← funext (heldTokens_eq_tokenQuantity keys h.asset_mem h.asset_policy
    h.asset_name)]

theorem ObservedOutput.bridgeRows_filter :
    ((bridgeRows cfg db icpAddress nativeAsset fun _ => true).filter
        fun row => decide (row.1 = observedGroup tx blockNo out tokens datum)) =
      outputRows cfg db icpAddress nativeAsset (fun _ => true) out := by
  rw [bridgeRows, List.filter_flatMap,
    flatMap_eq_of_unique keys.txOut_nodup h.out_mem]
  · rw [List.filter_eq_self]
    intro row hrow
    exact decide_eq_true (h.group_eq keys hrow)
  · intro other hother hne
    rw [List.filter_eq_nil_iff]
    intro row hrow hgroup
    obtain ⟨tx', block', blockNo', tokens', asset', datum', -, hgroup'⟩ :=
      exists_observedOutput hother hrow
    rw [hgroup', decide_eq_true_iff] at hgroup
    exact hne (keys.txOut_id _ hother _ h.out_mem (congrArg BridgeGroup.outputsId hgroup))

theorem ObservedOutput.groupSum_filter :
    ((bridgeLog cfg db icpAddress nativeAsset).filter
        fun row => decide (row.1 = observedGroup tx blockNo out tokens datum)) =
      [(observedGroup tx blockNo out tokens datum,
        spentTokens cfg db icpAddress nativeAsset tx)] := by
  refine List.perm_singleton.mp ?_
  refine ((Arrangement.perm _ _).filter _).trans ?_
  refine (groupSum_filter_perm _ fun group : BridgeGroup =>
    decide (group = observedGroup tx blockNo out tokens datum)).symm.trans ?_
  rw [h.bridgeRows_filter keys, groupSum_eq_singleton (h.outputRows_ne_nil keys)
    (fun row hrow => h.group_eq keys hrow), h.sum_outputRows keys, h.spentTokens_eq keys]

end Output

/-! ## The rows of a transaction -/

variable {row : BridgeGroup × ℕ}

theorem mem_bridgeLog_iff (keys : Keyed db) :
    row ∈ bridgeLog cfg db icpAddress nativeAsset ↔
      ∃ tx block blockNo out tokens asset datum,
        ObservedOutput db icpAddress nativeAsset tx block blockNo out tokens asset datum ∧
          row = (observedGroup tx blockNo out tokens datum,
            spentTokens cfg db icpAddress nativeAsset tx) := by
  constructor
  · intro hrow
    obtain ⟨joined, hjoined, hgroup⟩ := List.mem_map.mp
      (mem_groupSum.mp ((Arrangement.perm _ _).mem_iff.mp hrow)).1
    rw [bridgeRows] at hjoined
    obtain ⟨out, hout, hjoined⟩ := List.mem_flatMap.mp hjoined
    obtain ⟨tx, block, blockNo, tokens, asset, datum, hobserved, hgroup'⟩ :=
      exists_observedOutput hout hjoined
    refine ⟨tx, block, blockNo, out, tokens, asset, datum, hobserved, ?_⟩
    have hmem : row ∈ (bridgeLog cfg db icpAddress nativeAsset).filter
        fun row => decide (row.1 = observedGroup tx blockNo out tokens datum) :=
      List.mem_filter.mpr ⟨hrow, decide_eq_true (hgroup.symm.trans hgroup')⟩
    rw [hobserved.groupSum_filter keys] at hmem
    exact List.mem_singleton.mp hmem
  · rintro ⟨tx, block, blockNo, out, tokens, asset, datum, hobserved, rfl⟩
    have hmem := List.mem_singleton_self (observedGroup tx blockNo out tokens datum,
      spentTokens cfg db icpAddress nativeAsset tx)
    rw [← hobserved.groupSum_filter keys] at hmem
    exact (List.mem_filter.mp hmem).1

/-! ## The sum over a transaction -/

def transactionRows (cfg : TxInConfiguration) (db : Database) (icpAddress : String)
    (nativeAsset : Asset) (tx : TxRow) : List (BridgeGroup × ℕ) :=
  (bridgeLog cfg db icpAddress nativeAsset).filter fun row => row.1.txHash = tx.hash

theorem bridgeLog_keys_nodup (hdb : Consistent db) :
    ((bridgeLog cfg db icpAddress nativeAsset).map fun row => row.1.orderingKey).Nodup :=
  hdb.bridgePositions_increasing.imp ne_of_lt

theorem mem_transactionRows_iff (keys : Keyed db) (htx : tx ∈ db.tx) :
    row ∈ transactionRows cfg db icpAddress nativeAsset tx ↔
      ∃ block blockNo out tokens asset datum,
        ObservedOutput db icpAddress nativeAsset tx block blockNo out tokens asset datum ∧
          row = (observedGroup tx blockNo out tokens datum,
            spentTokens cfg db icpAddress nativeAsset tx) := by
  rw [transactionRows, List.mem_filter, mem_bridgeLog_iff keys, decide_eq_true_iff]
  constructor
  · rintro ⟨⟨tx', block, blockNo, out, tokens, asset, datum, hobserved, rfl⟩, hhash⟩
    obtain rfl : tx' = tx := keys.tx_hash _ hobserved.tx_mem _ htx hhash
    exact ⟨block, blockNo, out, tokens, asset, datum, hobserved, rfl⟩
  · rintro ⟨block, blockNo, out, tokens, asset, datum, hobserved, rfl⟩
    exact ⟨⟨tx, block, blockNo, out, tokens, asset, datum, hobserved, rfl⟩, rfl⟩

variable {position : TxPosition}

theorem exists_observedOutput_of_isToken (htx : tx ∈ db.tx) (hplace : tx.At db position)
    (hout : out ∈ createdOutputs db icpAddress tx) (htokens : tokens ∈ db.maTxOut)
    (htoken : IsToken db nativeAsset out tokens) :
    ∃ block blockNo asset datum,
      ObservedOutput db icpAddress nativeAsset tx block blockNo out tokens asset datum := by
  obtain ⟨block, hblock, hblockId, hblockNo, -⟩ := hplace
  obtain ⟨htokensId, asset, hasset, hident, hpolicy, hname⟩ := htoken
  obtain ⟨hmem, houtId, haddress⟩ : out ∈ db.txOut ∧ out.txId = tx.id ∧
      out.address = icpAddress := by simpa [createdOutputs] using hout
  obtain ⟨datum, hdatum⟩ := List.exists_mem_of_ne_nil _
    (leftJoin_ne_nil db.datum fun datum => decide (some datum.hash = out.dataHash))
  exact ⟨block, position.1, asset, datum, htx, hblock, hblockId, hblockNo, hmem, houtId, haddress,
    htokens, htokensId, hasset, hident, hpolicy, hname, hdatum⟩

theorem transactionRows_perm (keys : Keyed db) (htx : tx ∈ db.tx) (hplace : tx.At db position) :
    ((transactionRows cfg db icpAddress nativeAsset tx).map
        fun row => (row.1.outputsId, row.1.quantity)).Perm
      (((createdOutputs db icpAddress tx).filter
          fun out => ∃ tokens ∈ db.maTxOut, IsToken db nativeAsset out tokens).map
        fun out => (out.id, heldTokens db nativeAsset out)) := by
  have hid : ∀ row ∈ transactionRows cfg db icpAddress nativeAsset tx,
      ∀ row' ∈ transactionRows cfg db icpAddress nativeAsset tx,
        row.1.outputsId = row'.1.outputsId → row = row' := by
    intro row hrow row' hrow' hid
    obtain ⟨_, _, out, _, _, _, hobserved, rfl⟩ := (mem_transactionRows_iff keys htx).mp hrow
    obtain ⟨_, _, out', _, _, _, hobserved', rfl⟩ := (mem_transactionRows_iff keys htx).mp hrow'
    obtain rfl : out = out' := keys.txOut_id _ hobserved.out_mem _ hobserved'.out_mem hid
    have hne : outputRows cfg db icpAddress nativeAsset (fun _ => true) out ≠ [] :=
      hobserved.outputRows_ne_nil keys
    obtain ⟨joined, hjoined⟩ := List.exists_mem_of_ne_nil _ hne
    rw [← hobserved.group_eq keys hjoined, ← hobserved'.group_eq keys hjoined]
  have hrows : (transactionRows cfg db icpAddress nativeAsset tx).Nodup :=
    (bridgeLog_keys_nodup keys.toConsistent).of_map.filter _
  refine (List.perm_ext_iff_of_nodup (hrows.map_on ?_)
    (((keys.txOut_nodup.filter _).filter _).map_on ?_)).mpr ?_
  · intro row hrow row' hrow' heq
    exact hid row hrow row' hrow' (congrArg Prod.fst heq)
  · intro out hout out' hout' heq
    exact keys.txOut_id _ (List.mem_of_mem_filter (List.mem_of_mem_filter hout)) _
      (List.mem_of_mem_filter (List.mem_of_mem_filter hout')) (congrArg Prod.fst heq)
  · rintro ⟨id, quantity⟩
    rw [List.mem_map, List.mem_map]
    constructor
    · rintro ⟨row, hrow, heq⟩
      obtain ⟨block, blockNo, out, tokens, asset, datum, hobserved, rfl⟩ :=
        (mem_transactionRows_iff keys htx).mp hrow
      refine ⟨out, List.mem_filter.mpr ⟨List.mem_filter.mpr ⟨hobserved.out_mem, ?_⟩, ?_⟩, ?_⟩
      · exact decide_eq_true ⟨hobserved.out_tx, hobserved.out_address⟩
      · exact decide_eq_true ⟨tokens, hobserved.tokens_mem, hobserved.isToken⟩
      · rw [hobserved.heldTokens_eq keys]
        exact heq
    · rintro ⟨out, hout, heq⟩
      obtain ⟨hout, htokens⟩ := List.mem_filter.mp hout
      obtain ⟨tokens, hmem, htoken⟩ := of_decide_eq_true htokens
      obtain ⟨block, blockNo, asset, datum, hobserved⟩ :=
        exists_observedOutput_of_isToken htx hplace hout hmem htoken
      refine ⟨_, (mem_transactionRows_iff keys htx).mpr
        ⟨block, blockNo, out, tokens, asset, datum, hobserved, rfl⟩, ?_⟩
      rw [hobserved.heldTokens_eq keys] at heq
      exact heq

theorem heldTokens_eq_zero (h : ¬ ∃ tokens ∈ db.maTxOut, IsToken db nativeAsset out tokens) :
    heldTokens db nativeAsset out = 0 := by
  have hnone : db.maTxOut.filter (IsToken db nativeAsset out) = [] :=
    List.filter_eq_nil_iff.mpr fun tokens htokens htoken =>
      h ⟨tokens, htokens, of_decide_eq_true htoken⟩
  rw [heldTokens, hnone]
  rfl

/-- A transaction that spends tokens at the address creates at most one output with tokens there. -/
def CreatesAtMostOne (cfg : TxInConfiguration) (db : Database) (icpAddress : String)
    (nativeAsset : Asset) (tx : TxRow) : Prop :=
  0 < spentTokens cfg db icpAddress nativeAsset tx →
    ∀ out ∈ createdOutputs db icpAddress tx, ∀ out' ∈ createdOutputs db icpAddress tx,
      0 < heldTokens db nativeAsset out → 0 < heldTokens db nativeAsset out' → out = out'

/-- What the rows of a transaction leave after subtracting the spent tokens from each of them. -/
theorem sum_transactionRows (keys : Keyed db) (htx : tx ∈ db.tx) (hplace : tx.At db position)
    (hone : CreatesAtMostOne cfg db icpAddress nativeAsset tx) :
    ((transactionRows cfg db icpAddress nativeAsset tx).map
        fun row => row.1.quantity - row.2).sum =
      createdTokens db icpAddress nativeAsset tx -
        spentTokens cfg db icpAddress nativeAsset tx := by
  set spent := spentTokens cfg db icpAddress nativeAsset tx with hspent
  calc ((transactionRows cfg db icpAddress nativeAsset tx).map
        fun row => row.1.quantity - row.2).sum
      = (((transactionRows cfg db icpAddress nativeAsset tx).map
          fun row => (row.1.outputsId, row.1.quantity)).map fun held => held.2 - spent).sum := by
        rw [List.map_map]
        refine congrArg List.sum (List.map_congr_left fun row hrow => ?_)
        obtain ⟨_, _, _, _, _, _, _, rfl⟩ := (mem_transactionRows_iff keys htx).mp hrow
        rfl
    _ = (((createdOutputs db icpAddress tx).filter
          fun out => ∃ tokens ∈ db.maTxOut, IsToken db nativeAsset out tokens).map
            fun out => heldTokens db nativeAsset out - spent).sum := by
        rw [((transactionRows_perm keys htx hplace).map _).sum_eq, List.map_map]
        rfl
    _ = ((createdOutputs db icpAddress tx).map
          fun out => heldTokens db nativeAsset out - spent).sum := by
        refine sum_map_filter_of_zero fun out _ hnone => ?_
        rw [heldTokens_eq_zero (of_decide_eq_false hnone), Nat.zero_sub]
    _ = createdTokens db icpAddress nativeAsset tx - spent := by
        obtain hzero | hpositive := Nat.eq_zero_or_pos spent
        · rw [hzero]
          rfl
        · exact sum_map_sub_of_unique (keys.txOut_nodup.filter _) (hone hpositive) spent

/-! ## The transfers of a transaction -/

variable {utxo : BridgeUtxo}

theorem decodeBridgeUtxo_tokens (h : decodeBridgeUtxo row = .ok utxo) :
    utxo.tokensOut = row.1.quantity ∧ utxo.tokensIn = row.2 := by
  have hamount : ∀ {column : String} {quantity amount : ℕ},
      decodeNativeTokenAmount column quantity = .ok amount → amount = quantity := by
    intro column quantity amount hdecode
    unfold decodeNativeTokenAmount at hdecode
    split_ifs at hdecode
    exact (Except.ok.inj hdecode).symm
  simp only [decodeBridgeUtxo, bind_eq_ok_iff, Except.ok.injEq] at h
  obtain ⟨tokensOut, hout, tokensIn, hin, datum, -, rfl⟩ := h
  exact ⟨hamount hout, hamount hin⟩

/-- A query returned these UTXOs. -/
def IsPage (cfg : TxInConfiguration) (db : Database) (icpAddress : String) (nativeAsset : Asset)
    (utxos : List BridgeUtxo) : Prop :=
  ∃ order checkpoint toBlock maxUtxos,
    getBridgeUtxosTx order cfg db icpAddress nativeAsset checkpoint toBlock maxUtxos = .ok utxos

theorem IsPage.exists_row (hdb : Consistent db) {utxos : List BridgeUtxo}
    (h : IsPage cfg db icpAddress nativeAsset utxos) (hutxo : utxo ∈ utxos) :
    ∃ row ∈ bridgeLog cfg db icpAddress nativeAsset, decodeBridgeUtxo row = .ok utxo := by
  obtain ⟨order, checkpoint, toBlock, maxUtxos, hquery⟩ := h
  simp only [getBridgeUtxosTx, hdb.arrange_bridgeRows order] at hquery
  obtain ⟨row, hrow, hdecode⟩ := exists_of_mem_mapM hquery hutxo
  cases maxUtxos with
  | none => exact ⟨row, List.mem_of_mem_filter hrow, hdecode⟩
  | some limit => exact ⟨row, List.mem_of_mem_filter (List.mem_of_mem_take hrow), hdecode⟩

def transactionUtxos (tx : TxRow) (pages : List (List BridgeUtxo)) : List BridgeUtxo :=
  pages.flatten.filter fun utxo => utxo.txHash = tx.hash

/-- The queries returned each UTXO of the transaction once. -/
structure ReadOnce (cfg : TxInConfiguration) (db : Database) (icpAddress : String)
    (nativeAsset : Asset) (tx : TxRow) (pages : List (List BridgeUtxo)) : Prop where
  isPage : ∀ page ∈ pages, IsPage cfg db icpAddress nativeAsset page
  positions : ((transactionUtxos tx pages).map BridgeUtxo.orderingKey).Perm
    ((transactionRows cfg db icpAddress nativeAsset tx).map fun row => row.1.orderingKey)

theorem ReadOnce.exists_row (hdb : Consistent db) {pages : List (List BridgeUtxo)}
    (hread : ReadOnce cfg db icpAddress nativeAsset tx pages)
    (hutxo : utxo ∈ transactionUtxos tx pages) :
    ∃ row ∈ transactionRows cfg db icpAddress nativeAsset tx, decodeBridgeUtxo row = .ok utxo := by
  obtain ⟨hutxo, hhash⟩ := List.mem_filter.mp hutxo
  obtain ⟨page, hpage, hutxo⟩ := List.mem_flatten.mp hutxo
  obtain ⟨row, hrow, hdecode⟩ := (hread.isPage page hpage).exists_row hdb hutxo
  refine ⟨row, List.mem_filter.mpr ⟨hrow, ?_⟩, hdecode⟩
  rw [← (decodeBridgeUtxo_eq_ok hdecode).2]
  exact hhash

theorem ReadOnce.tokens_perm (hdb : Consistent db) {pages : List (List BridgeUtxo)}
    (hread : ReadOnce cfg db icpAddress nativeAsset tx pages) :
    ((transactionUtxos tx pages).map
        fun utxo => (utxo.orderingKey, utxo.tokensOut - utxo.tokensIn)).Perm
      ((transactionRows cfg db icpAddress nativeAsset tx).map
        fun row => (row.1.orderingKey, row.1.quantity - row.2)) := by
  have hkeys : ((transactionRows cfg db icpAddress nativeAsset tx).map
      fun row => row.1.orderingKey).Nodup :=
    (bridgeLog_keys_nodup hdb).sublist (List.filter_sublist.map _)
  have hfst {α : Type} {xs : List α} {key : α → UtxoOrderingKey} {amount : α → ℕ}
      (h : (xs.map key).Nodup) : (xs.map fun x => (key x, amount x)).Nodup := by
    refine List.Nodup.of_map Prod.fst ?_
    rwa [List.map_map]
  have htokens {row : BridgeGroup × ℕ} {utxo : BridgeUtxo}
      (hdecode : decodeBridgeUtxo row = .ok utxo) :
      (utxo.orderingKey, utxo.tokensOut - utxo.tokensIn) =
        (row.1.orderingKey, row.1.quantity - row.2) := by
    rw [(decodeBridgeUtxo_eq_ok hdecode).1, (decodeBridgeUtxo_tokens hdecode).1,
      (decodeBridgeUtxo_tokens hdecode).2]
  refine (List.perm_ext_iff_of_nodup (hfst (hread.positions.nodup_iff.mpr hkeys))
    (hfst hkeys)).mpr fun entry => ?_
  rw [List.mem_map, List.mem_map]
  constructor
  · rintro ⟨utxo, hutxo, rfl⟩
    obtain ⟨row, hrow, hdecode⟩ := hread.exists_row hdb hutxo
    exact ⟨row, hrow, (htokens hdecode).symm⟩
  · rintro ⟨row, hrow, rfl⟩
    obtain ⟨utxo, hutxo, hkey⟩ := List.mem_map.mp
      (hread.positions.mem_iff.mpr (List.mem_map_of_mem hrow))
    obtain ⟨row', hrow', hdecode⟩ := hread.exists_row hdb hutxo
    obtain rfl : row' = row := List.inj_on_of_nodup_map hkeys hrow' hrow
      ((decodeBridgeUtxo_eq_ok hdecode).1.symm.trans hkey)
    exact ⟨utxo, hutxo, htokens hdecode⟩

end PartnerChains.DbSync

namespace PartnerChains.Bridge

open DbSync Relational

variable {Recipient : Type}

theorem tokenAmount_utxoToTransfer (recipientTryFrom : ByteString → Option Recipient)
    {utxo : BridgeUtxo} (hlt : utxo.tokensOut - utxo.tokensIn < 2 ^ 64) :
    (utxoToTransfer recipientTryFrom utxo).elim 0 (·.tokenAmount.toNat) =
      utxo.tokensOut - utxo.tokensIn := by
  have hamount : (UInt64.ofNat (utxo.tokensOut - utxo.tokensIn)).toNat =
      utxo.tokensOut - utxo.tokensIn := UInt64.toNat_ofNat_of_lt hlt
  simp only [utxoToTransfer]
  split_ifs with hless hzero
  · exact (Nat.sub_eq_zero_of_le hless.le).symm
  · exact hzero.symm
  · split
    · exact hamount
    · split
      · split <;> exact hamount
      · exact hamount
      · exact hamount

/-- The transfers of a transaction whose UTXOs are each read once, in any number of pages, add up
to the tokens that it creates at the address less those that it spends there. -/
theorem transfers_of_transaction_add_up (recipientTryFrom : ByteString → Option Recipient)
    (cfg : TxInConfiguration) {db : Database} {icpAddress : String} {nativeAsset : Asset}
    (keys : Keyed db) (hfits : ∀ tokens ∈ db.maTxOut, tokens.quantity < 2 ^ 64) {tx : TxRow}
    (htx : tx ∈ db.tx) {position : TxPosition} (hplace : tx.At db position)
    (hone : CreatesAtMostOne cfg db icpAddress nativeAsset tx) {pages : List (List BridgeUtxo)}
    (hread : ReadOnce cfg db icpAddress nativeAsset tx pages) :
    (((transactionUtxos tx pages).filterMap (utxoToTransfer recipientTryFrom)).map
        (·.tokenAmount.toNat)).sum =
      createdTokens db icpAddress nativeAsset tx -
        spentTokens cfg db icpAddress nativeAsset tx := by
  have hlt : ∀ utxo ∈ transactionUtxos tx pages, utxo.tokensOut - utxo.tokensIn < 2 ^ 64 := by
    intro utxo hutxo
    obtain ⟨row, hrow, hdecode⟩ := hread.exists_row keys.toConsistent hutxo
    obtain ⟨_, _, _, tokens, _, _, hobserved, rfl⟩ := (mem_transactionRows_iff keys htx).mp hrow
    rw [(decodeBridgeUtxo_tokens hdecode).1]
    exact (Nat.sub_le _ _).trans_lt (hfits tokens hobserved.tokens_mem)
  calc (((transactionUtxos tx pages).filterMap (utxoToTransfer recipientTryFrom)).map
        (·.tokenAmount.toNat)).sum
      = ((transactionUtxos tx pages).map fun utxo => utxo.tokensOut - utxo.tokensIn).sum := by
        rw [sum_map_filterMap]
        refine congrArg List.sum (List.map_congr_left fun utxo hutxo => ?_)
        exact tokenAmount_utxoToTransfer recipientTryFrom (hlt utxo hutxo)
    _ = ((transactionRows cfg db icpAddress nativeAsset tx).map
          fun row => row.1.quantity - row.2).sum := by
        have hsum := ((hread.tokens_perm keys.toConsistent).map Prod.snd).sum_eq
        rwa [List.map_map, List.map_map] at hsum
    _ = createdTokens db icpAddress nativeAsset tx -
          spentTokens cfg db icpAddress nativeAsset tx :=
        sum_transactionRows keys htx hplace hone

/-- The second transaction spends 10 tokens and creates 25, beside another asset and another
address. -/
def depositDatabase : Database where
  block := [⟨1, Bytes.filled 32 1, some 5, some 0, some 100, 2000⟩]
  tx := [⟨1, Bytes.filled 32 2, 1, 0⟩, ⟨2, Bytes.filled 32 3, 1, 1⟩]
  txOut := [⟨1, 1, 0, "addr", none, some 2⟩, ⟨2, 1, 1, "other", none, some 2⟩,
    ⟨3, 2, 0, "addr", none, none⟩]
  txIn := [⟨1, 2, 1, 0⟩, ⟨2, 2, 1, 1⟩]
  maTxOut := [⟨10, 1, 1⟩, ⟨7, 1, 2⟩, ⟨15, 2, 1⟩, ⟨25, 3, 1⟩, ⟨7, 3, 2⟩]
  multiAsset := [⟨1, Bytes.filled 28 3, []⟩, ⟨2, Bytes.filled 28 4, []⟩]
  datum := []

theorem transfers_of_transaction_add_up_deposit :
    ∃ pages : List (List BridgeUtxo),
      ReadOnce .enabled depositDatabase "addr" ⟨Bytes.filled 28 3, []⟩
          ⟨2, Bytes.filled 32 3, 1, 1⟩ pages ∧
        (((transactionUtxos ⟨2, Bytes.filled 32 3, 1, 1⟩ pages).filterMap
          (utxoToTransfer fun _ => (none : Option ℕ))).map (·.tokenAmount.toNat)).sum = 15 := by
  have keys : Keyed depositDatabase := by
    refine ⟨?_, ?_, ?_, ?_, ?_, ?_, ?_, ?_, ?_, ?_, ?_, ?_⟩
    · constructor <;> decide
    all_goals decide
  have hrows : groupSum (bridgeRows .enabled depositDatabase "addr" ⟨Bytes.filled 28 3, []⟩
      fun _ => true) =
      [(⟨Bytes.filled 32 2, 1, 10, .null, 5, 0, 0⟩, 0),
        (⟨Bytes.filled 32 3, 3, 25, .null, 5, 1, 0⟩, 10)] := by decide
  have hpage : groupSum (bridgeRows .enabled depositDatabase "addr" ⟨Bytes.filled 28 3, []⟩
      (bridgeCondition (.block 0) 5)) =
      [(⟨Bytes.filled 32 2, 1, 10, .null, 5, 0, 0⟩, 0),
        (⟨Bytes.filled 32 3, 3, 25, .null, 5, 1, 0⟩, 10)] := by decide
  have hread : ReadOnce .enabled depositDatabase "addr" ⟨Bytes.filled 28 3, []⟩
      ⟨2, Bytes.filled 32 3, 1, 1⟩ [[⟨5, 0, Bytes.filled 32 2, 0, 10, 0, none⟩,
        ⟨5, 1, Bytes.filled 32 3, 0, 25, 10, none⟩]] := by
    constructor
    · intro page hmem
      obtain rfl := List.mem_singleton.mp hmem
      refine ⟨.stable _, .block 0, 5, none, ?_⟩
      simp only [getBridgeUtxosTx, hpage]
      rfl
    · rw [transactionRows, bridgeLog, hrows]
      decide
  have hplace : TxRow.At depositDatabase ⟨2, Bytes.filled 32 3, 1, 1⟩ (toLex (5, 1)) :=
    ⟨⟨1, Bytes.filled 32 1, some 5, some 0, some 100, 2000⟩, by decide, rfl, rfl, rfl⟩
  refine ⟨_, hread, ?_⟩
  rw [transfers_of_transaction_add_up _ .enabled keys (by decide) (by decide) hplace
    (fun _ => by decide) hread]
  decide

end PartnerChains.Bridge
