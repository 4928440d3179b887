import PartnerChains.Model.BridgeTransactions
import PartnerChains.Verification.Bridge.Delivery
import PartnerChains.Verification.Bridge.Observation
import PartnerChains.Verification.SmartContracts.Conservation

/-!
# From the built transaction to the observed transfer

Each builder makes one output at the illiquid supply. The observer credits the difference
between its tokens and the tokens that were spent there.
-/

namespace PartnerChains.SmartContracts

open DbSync Bridge Fallible

/-! ## Datums -/

theorem decode_toPlutusData (datum : TokenTransferDatum) :
    TokenTransferDatum.decode datum.toPlutusData = .ok datum := by
  cases datum with
  | userTransfer receiver =>
      simp [TokenTransferDatum.toPlutusData, TokenTransferDatum.decode,
        VersionedGenericDatum.toPlutusData, plutusDataVersionAndPayload, PlutusData.asList,
        PlutusData.asU64, PlutusData.asInteger, TokenTransferDatum.decodeV1,
        PlutusData.asConstrPlutusData, PlutusData.asBytes]
  | reserveTransfer =>
      simp [TokenTransferDatum.toPlutusData, TokenTransferDatum.decode,
        VersionedGenericDatum.toPlutusData, plutusDataVersionAndPayload, PlutusData.asList,
        PlutusData.asU64, PlutusData.asInteger, TokenTransferDatum.decodeV1,
        PlutusData.asConstrPlutusData]

variable {Recipient : Type} {recipientTryFrom : ByteString → Option Recipient}

/-- The difference of the tokens is credited as the datum says. -/
theorem utxoToTransfer_eq {utxo : BridgeUtxo} {datum : TokenTransferDatum} {amount : UInt64}
    (hdatum : utxo.datum = some datum.toPlutusData)
    (htokens : utxo.tokensOut = utxo.tokensIn + amount.toNat) (hamount : 0 < amount) :
    utxoToTransfer recipientTryFrom utxo =
      some (transferOf recipientTryFrom datum amount utxo.utxoId) := by
  have hpositive : 0 < amount.toNat := UInt64.lt_iff_toNat_lt.mp hamount
  have hle : ¬ utxo.tokensOut < utxo.tokensIn := by omega
  have hdelta : utxo.tokensOut - utxo.tokensIn = amount.toNat := by omega
  simp only [utxoToTransfer, if_neg hle, hdelta, hpositive.ne', hdatum, decode_toPlutusData,
    UInt64.ofNat_toNat]
  cases datum with
  | reserveTransfer => rfl
  | userTransfer receiver =>
      cases hreceiver : recipientTryFrom receiver <;> simp [transferOf, hreceiver]

/-! ## Built transactions -/

/-- What a transaction does at the illiquid supply. -/
structure PaysToSupply (scripts : ScriptsData) (request : BridgeRequest) (built : Transaction)
    (output : TransactionOutput) : Prop where
  mem : output ∈ built.outputs
  address : output.address = scripts.icsAddress
  datum : output.plutusData = some request.transferDatum.toPlutusData
  tokens_eq : (output.multiasset.getAsset request.tokenAmount.token.policyId
      request.tokenAmount.token.assetName.toList).toNat =
    request.icsBalance + request.tokenAmount.amount.toNat
  inputs : (built.inputs.filter fun utxo => utxo.address = scripts.icsAddress) =
    request.icsInput.toList

variable {lib : SerializationLib} {ctx : TransactionContext} {scripts : ScriptsData}
  {built : Transaction}
variable {output : TransactionOutput}

theorem PaysToSupply.tokens_pos {request : BridgeRequest}
    (h : PaysToSupply scripts request built output) (hamount : 0 < request.tokenAmount.amount) :
    output.multiasset.getAsset request.tokenAmount.token.policyId
      request.tokenAmount.token.assetName.toList ≠ 0 := by
  have hpositive : 0 < request.tokenAmount.amount.toNat := UInt64.lt_iff_toNat_lt.mp hamount
  have htokens := h.tokens_eq
  intro hzero
  rw [hzero, UInt64.toNat_zero] at htokens
  omega

theorem depositOnly_pays {tokenAmount : TokenAmount} {pcAddress : ByteString}
    (h : depositOnlyTx scripts.icsAddress tokenAmount pcAddress = .ok built) :
    ∃ output, PaysToSupply scripts (.depositOnly tokenAmount pcAddress) built output := by
  obtain rfl := Except.ok.inj h
  have hasset : (MultiAsset.withAssetAmount ∅ tokenAmount.token tokenAmount.amount).getAsset
      tokenAmount.token.policyId tokenAmount.token.assetName.toList = tokenAmount.amount := by
    rw [MultiAsset.getAsset_withAssetAmount, if_pos ⟨rfl, rfl⟩]
  refine ⟨_, List.mem_singleton_self _, rfl, rfl, ?_, rfl⟩
  simp [BridgeRequest.tokenAmount, BridgeRequest.icsBalance, BridgeRequest.icsInput, hasset]

theorem deposit_pays {icsUtxo : OgmiosUtxo} {tokenAmount : TokenAmount} {pcAddress : ByteString}
    (hics : icsUtxo.address = scripts.icsAddress)
    (h : depositTx scripts.icsAddress icsUtxo tokenAmount pcAddress = .ok built) :
    ∃ output, PaysToSupply scripts (.deposit icsUtxo tokenAmount pcAddress) built output := by
  obtain ⟨value, hvalue, hrest⟩ := bind_eq_ok_iff.mp h
  obtain ⟨ma, hma, hrest⟩ := bind_eq_ok_iff.mp hrest
  obtain ⟨amount, hsum, hrest⟩ := bind_eq_ok_iff.mp hrest
  obtain ⟨input, hinput, hbuilt⟩ := bind_eq_ok_iff.mp hrest
  rw [scriptInput_eq_ok hinput] at hbuilt
  obtain rfl := Except.ok.inj hbuilt
  have hold : (((ma.lookup tokenAmount.token.policyId).getD ∅).lookup
      tokenAmount.token.assetName.toList).getD 0 = icsUtxo.getAssetAmount tokenAmount.token := by
    rw [OgmiosUtxo.getAssetAmount, ← getAsset_of_toCsl (mapError_eq_ok_iff.mp hvalue)
      (orElse_eq_ok_iff.mp hma), MultiAsset.getAsset]
    cases ma.lookup tokenAmount.token.policyId <;> simp
  have htotal : amount.toNat =
      (icsUtxo.getAssetAmount tokenAmount.token).toNat + tokenAmount.amount.toNat := by
    rw [checkedAdd_eq_some (orElse_eq_ok_iff.mp hsum), hold]
  have hasset : MultiAsset.getAsset (ma.insert tokenAmount.token.policyId
      (((ma.lookup tokenAmount.token.policyId).getD ∅).insert
        tokenAmount.token.assetName.toList amount)) tokenAmount.token.policyId
          tokenAmount.token.assetName.toList = amount := by
    simp [MultiAsset.getAsset_insert]
  refine ⟨_, List.mem_singleton_self _, rfl, rfl, ?_, ?_⟩
  · simp [BridgeRequest.tokenAmount, BridgeRequest.icsBalance, BridgeRequest.icsInput, hasset,
      htotal]
  · simp [hics, BridgeRequest.icsInput]

theorem release_pays (hlib : lib.ChecksSums) {reserve : ReserveUtxo} {icsUtxo : OgmiosUtxo}
    {vFunction : Option PlutusScript} {amount : UInt64} {costs : Costs}
    (haddresses : scripts.reserveAddress ≠ scripts.icsAddress)
    (hics : icsUtxo.address = scripts.icsAddress)
    (hreserve : reserve.utxo.address = scripts.reserveAddress)
    (h : BridgeRequest.build lib ctx scripts (.release reserve icsUtxo vFunction amount costs) =
      .ok built) :
    ∃ output,
      PaysToSupply scripts (.release reserve icsUtxo vFunction amount costs) built output := by
  obtain ⟨tx, hrelease, hbuilt⟩ := bind_eq_ok_iff.mp h
  obtain rfl := Except.ok.inj hbuilt
  obtain ⟨builder, leftInReserve, icsTokens, reserveTokens, hbuilder, htx⟩ :=
    exists_releaseBuilder hrelease
  obtain ⟨added, change, hfrom⟩ := exists_builtFrom htx
  have houtputs : tx.outputs = builder.outputs ++ change := by rw [hfrom.tx_eq]; rfl
  have hspent : icsUtxo.utxoId ∈ tx.inputs := by
    rw [hfrom.tx_eq, TransactionBuilder.mem_build_inputs, hbuilder.scriptIds_eq]
    simp
  have hsum := ReleaseBuilder.icsAmount (hbuilder.fits hlib htx)
  rw [hbuilder.outputs] at houtputs
  refine ⟨_, List.mem_of_mem_head? (congrArg List.head? houtputs), rfl, rfl, ?_, ?_⟩
  · simp only [BridgeRequest.tokenAmount, BridgeRequest.icsBalance, BridgeRequest.icsInput,
      Option.elim_some, getAsset_insert_singleton, if_true, hsum]
  · rw [List.filter_comm]
    simp [hspent, hics, hreserve, haddresses, BridgeRequest.icsInput]

theorem handover_pays {reserve : ReserveUtxo} (hamount : 0 < (getAmountToRelease reserve).amount)
    (haddresses : scripts.reserveAddress ≠ scripts.icsAddress)
    (hreserve : reserve.utxo.address = scripts.reserveAddress)
    (h : handoverReserveTx scripts reserve = .ok built) :
    ∃ output, PaysToSupply scripts (.handover reserve) built output := by
  obtain ⟨input, hinput, hbuilt⟩ := bind_eq_ok_iff.mp h
  rw [scriptInput_eq_ok hinput] at hbuilt
  obtain rfl := Except.ok.inj hbuilt
  have houtput : illiquidSupplyValidatorOutput (getAmountToRelease reserve) scripts =
      ⟨scripts.icsAddress, some (TokenTransferDatum.toPlutusData .reserveTransfer),
        (getAmountToRelease reserve).token.toMultiAsset (getAmountToRelease reserve).amount⟩ :=
    if_pos hamount
  have hasset : ((getAmountToRelease reserve).token.toMultiAsset
      (getAmountToRelease reserve).amount).getAsset (getAmountToRelease reserve).token.policyId
        (getAmountToRelease reserve).token.assetName.toList =
          (getAmountToRelease reserve).amount := by
    simp [AssetId.toMultiAsset, MultiAsset.getAsset, AList.lookup, AList.singleton]
  refine ⟨illiquidSupplyValidatorOutput (getAmountToRelease reserve) scripts,
    List.mem_singleton_self _, by rw [houtput], by rw [houtput]; rfl, ?_, ?_⟩
  · simp [BridgeRequest.tokenAmount, BridgeRequest.icsBalance, BridgeRequest.icsInput, houtput,
      hasset]
  · simp [hreserve, haddresses, BridgeRequest.icsInput]

theorem build_pays (hlib : lib.ChecksSums) {request : BridgeRequest}
    (hplaced : request.WellPlaced scripts) (hamount : 0 < request.tokenAmount.amount)
    (h : request.build lib ctx scripts = .ok built) :
    ∃ output, PaysToSupply scripts request built output := by
  cases request with
  | depositOnly tokenAmount pcAddress => exact depositOnly_pays h
  | deposit icsUtxo tokenAmount pcAddress => exact deposit_pays (hplaced.ics _ rfl) h
  | release reserve icsUtxo vFunction amount costs =>
      exact release_pays hlib hplaced.addresses (hplaced.ics _ rfl) (hplaced.reserve _ rfl) h
  | handover reserve =>
      exact handover_pays hamount hplaced.addresses (hplaced.reserve _ rfl) h

/-! ## Rows of the transaction -/

section Rows

variable {cfg : TxInConfiguration} {db : Database} {request : BridgeRequest} {tx : TxRow}
  {blockNo : ℕ} {out : TxOutRow}

theorem Holds.tokenQuantity_eq (keys : Keyed db) {row : TxOutRow} {tokens : MultiAsset}
    (h : Holds db row tokens) {asset : MultiAssetRow} (hasset : asset ∈ db.multiAsset) :
    tokenQuantity db asset row = (tokens.getAsset asset.policy asset.name).toNat := by
  by_cases hzero : tokens.getAsset asset.policy asset.name = 0
  · rw [hzero]
    refine List.sum_eq_zero fun quantity hquantity => ?_
    obtain ⟨held, hheld, rfl⟩ := List.mem_map.mp hquantity
    obtain ⟨hmem, hon⟩ := List.mem_filter.mp hheld
    rw [decide_eq_true_iff] at hon
    rw [h.amount held hmem asset hasset hon.1 hon.2, hzero]
    rfl
  · obtain ⟨asset', hasset', hpolicy, hname, held, hheld, hrow, hident⟩ := h.listed _ _ hzero
    obtain rfl : asset' = asset := keys.multiAsset_name _ hasset' _ hasset hpolicy hname
    have hsingle : (db.maTxOut.filter fun tokens =>
        tokens.txOutId = row.id ∧ tokens.ident = asset'.id) = [held] := by
      refine Relational.filter_eq_singleton keys.maTxOut_nodup hheld (by simp [hrow, hident])
        fun other hother hon => ?_
      obtain ⟨hout, hident'⟩ := of_decide_eq_true hon
      exact keys.maTxOut_asset _ hother _ hheld (hout.trans hrow.symm)
        (hident'.trans hident.symm)
    rw [tokenQuantity, hsingle]
    simpa using h.amount held hheld asset' hasset' hrow hident

theorem Recorded.exists_observed (hpays : PaysToSupply scripts request built output)
    (hamount : 0 < request.tokenAmount.amount)
    (h : Recorded cfg db scripts.icsAddress built tx blockNo out) :
    ∃ block held asset datum, Observed db scripts.icsAddress
        ⟨request.tokenAmount.token.policyId, request.tokenAmount.token.assetName.toList⟩ tx block
        blockNo out held asset (some datum) ∧
      held.quantity = (output.multiasset.getAsset request.tokenAmount.token.policyId
        request.tokenAmount.token.assetName.toList).toNat ∧
      datum.value = .data request.transferDatum.toPlutusData := by
  have hout := h.outputs output hpays.mem hpays.address
  obtain ⟨block, hblock, htxBlock, hblockNo⟩ := h.block
  obtain ⟨asset, hasset, hpolicy, hname, held, hheld, hheldOut, hheldAsset⟩ :=
    hout.tokens.listed _ _ (hpays.tokens_pos hamount)
  obtain ⟨datum, hdatum, hhash, hvalue⟩ := hout.datum _ hpays.datum
  refine ⟨block, held, asset, datum, {
    tx_mem := h.tx_mem
    block_mem := hblock
    tx_block := htxBlock
    block_no := hblockNo
    out_mem := h.out_mem
    out_tx := h.out_tx
    out_address := hout.address.trans hpays.address
    out_only := h.out_only
    tokens_mem := hheld
    tokens_out := hheldOut
    asset_mem := hasset
    tokens_asset := hheldAsset.symm
    asset_policy := hpolicy
    asset_name := hname
    datum_mem := Relational.some_mem_leftJoin.mpr ⟨hdatum, by simpa using hhash⟩ }, ?_, hvalue⟩
  rw [← hpolicy, ← hname]
  exact hout.tokens.amount held hheld asset hasset hheldOut hheldAsset

/-- The row of the spent output, if there is one, has the balance of the request. -/
theorem tokenQuantity_spent (keys : Keyed db) {asset : MultiAssetRow}
    (hasset : asset ∈ db.multiAsset) (hpolicy : asset.policy = request.tokenAmount.token.policyId)
    (hname : asset.name = request.tokenAmount.token.assetName.toList) {spent : Option TxOutRow}
    (hrows : List.Forall₂ (IsRowOf db) request.icsInput.toList spent.toList) :
    spent.elim 0 (tokenQuantity db asset) = request.icsBalance := by
  unfold BridgeRequest.icsBalance
  cases hinput : request.icsInput with
  | none =>
      rw [hinput] at hrows
      cases spent with
      | none => rfl
      | some row => cases hrows
  | some utxo =>
      rw [hinput] at hrows
      cases spent with
      | none => cases hrows
      | some row =>
          obtain ⟨hrow, -⟩ := List.forall₂_cons.mp hrows
          rw [Option.elim_some, Option.elim_some, hrow.tokens.tokenQuantity_eq keys hasset,
            hpolicy, hname]
          rfl

/-- The log has one row for a recorded transaction: the tokens of its output, the balance of
the spent output and the datum of the request. -/
theorem Recorded.bridgeLog_filter (keys : Keyed db)
    (hpays : PaysToSupply scripts request built output) (hamount : 0 < request.tokenAmount.amount)
    (h : Recorded cfg db scripts.icsAddress built tx blockNo out) :
    ∃ row, ((bridgeLog cfg db scripts.icsAddress ⟨request.tokenAmount.token.policyId,
        request.tokenAmount.token.assetName.toList⟩).filter
          fun row => decide (row.1.txHash = tx.hash)) = [row] ∧
      row.1.orderingKey = .mk blockNo tx.blockIndex out.index ∧
      row.1.quantity = (output.multiasset.getAsset request.tokenAmount.token.policyId
        request.tokenAmount.token.assetName.toList).toNat ∧
      row.2 = request.icsBalance ∧
      row.1.datum = .data request.transferDatum.toPlutusData := by
  obtain ⟨block, held, asset, datum, hobserved, hquantity, hvalue⟩ :=
    h.exists_observed hpays hamount
  obtain ⟨spent, hspent, hrows⟩ := h.inputs
  rw [hpays.inputs] at hrows
  refine ⟨_, hobserved.bridgeLog_filter keys hspent, rfl, hquantity, ?_, ?_⟩
  · exact tokenQuantity_spent keys hobserved.asset_mem hobserved.asset_policy
      hobserved.asset_name hrows
  · simpa [observedGroup] using hvalue

end Rows

/-! ## Calls that reach the transaction -/

section Calls

variable {setup : Setup Recipient} {db : Database}

/-- A call whose page has room reads every row after its checkpoint. -/
theorem filter_of_readUtxos (hdb : Consistent db) {row : BridgeGroup × ℕ} {txHash : McTxHash}
    (hrow : ((bridgeLog setup.txInConfiguration db
      setup.scripts.illiquidCirculationSupplyValidatorAddress
      ⟨setup.scripts.tokenPolicyId, setup.scripts.tokenAssetName⟩).filter
        fun row => decide (row.1.txHash = txHash)) = [row])
    {order : DbSync.UtxoOrder}
    {checkpoint : BridgeDataCheckpoint} {hash : McBlockHash} {reference : McBlockNumber}
    {utxos : List BridgeUtxo}
    (hread : readUtxos order setup.txInConfiguration db setup.scripts checkpoint
      setup.maxTransfers hash = .ok (reference, utxos))
    (hafter : isAfter db checkpoint row.1.orderingKey = true)
    (hupto : row.1.orderingKey.1 ≤ reference) (hroom : utxos.length < setup.maxTransfers.toNat) :
    ∃ utxo, decodeBridgeUtxo row = .ok utxo ∧
      (utxos.filter fun utxo => decide (utxo.txHash = txHash)) = [utxo] := by
  obtain ⟨resolved, hresolved, hquery⟩ := readUtxos_eq_ok hread
  simp only [getBridgeUtxosTx, hdb.arrange_bridgeRows order] at hquery
  -- the page is not full, so the limit has cut nothing off
  have hlength := (mapM_eq_ok_iff.mp hquery).length_eq
  rw [List.length_take] at hlength
  rw [List.take_of_length_le (by omega)] at hquery
  have hfiltered := mapM_filter_eq_ok hquery (p := fun utxo => decide (utxo.txHash = txHash))
    (q := fun row => decide (row.1.txHash = txHash))
    fun row utxo hdecode => by rw [(decodeBridgeUtxo_eq_ok hdecode).2]
  have hcondition : bridgeCondition resolved reference row.1.orderingKey = true := by
    have hbefore : resolved.isBefore row.1.orderingKey = true := by
      simpa [isAfter, hresolved] using hafter
    simp [bridgeCondition, hbefore, hupto]
  have hsingle : ([row].filter fun row => bridgeCondition resolved reference row.1.orderingKey) =
      [row] := by
    simp [hcondition]
  rw [List.filter_comm, hrow, hsingle, mapM_eq_ok_iff] at hfiltered
  cases hutxos : utxos.filter fun utxo => decide (utxo.txHash = txHash) with
  | nil =>
      rw [hutxos] at hfiltered
      cases hfiltered
  | cons utxo rest =>
      rw [hutxos] at hfiltered
      obtain ⟨hdecode, hrest⟩ := List.forall₂_cons.mp hfiltered
      exact ⟨utxo, hdecode, by rw [List.forall₂_nil_left_iff.mp hrest]⟩

theorem decodeBridgeUtxo_fields {row : BridgeGroup × ℕ} {utxo : BridgeUtxo}
    (h : decodeBridgeUtxo row = .ok utxo) {data : PlutusData} (hdatum : row.1.datum = .data data) :
    utxo.tokensOut = row.1.quantity ∧ utxo.tokensIn = row.2 ∧ utxo.datum = some data := by
  unfold decodeBridgeUtxo decodeNativeTokenAmount at h
  rw [hdatum] at h
  split_ifs at h
  · obtain rfl := Except.ok.inj h
    exact ⟨rfl, rfl, rfl⟩
  all_goals cases h

end Calls

/-! ### A release of three tokens -/

section Sample

def sampleRelease : BridgeRequest :=
  .release (sampleReserve 0) (sampleIcsUtxo 0) (some sampleVFunction) 3 .zeroCosts

def spentRow : TxOutRow := ⟨1, 1, 0, "addr_ics", none, some 2⟩

def createdRow : TxOutRow := ⟨2, 2, 0, "addr_ics", some (.filled 32 5), none⟩

def releaseTxRow : TxRow := ⟨2, .filled 32 8, 2, 0⟩

/-- The rows of the release, in block 5. -/
def sampleReleaseDatabase : Database where
  block := [⟨1, .filled 32 1, some 4, some 0, some 80, 1000⟩,
    ⟨2, .filled 32 2, some 5, some 0, some 100, 2000⟩]
  tx := [⟨1, .filled 32 7, 1, 0⟩, releaseTxRow]
  txOut := [spentRow, createdRow]
  txIn := []
  maTxOut := [⟨5, 1, 1⟩, ⟨1, 1, 2⟩, ⟨8, 2, 1⟩, ⟨1, 2, 2⟩]
  multiAsset := [⟨1, .filled 28 3, [114]⟩, ⟨2, .filled 28 1, []⟩]
  datum := [⟨.filled 32 5, .data (TokenTransferDatum.toPlutusData .reserveTransfer)⟩]

theorem sampleReleaseDatabase_keyed : Keyed sampleReleaseDatabase where
  toConsistent := by constructor <;> decide
  block_nodup := by decide
  tx_nodup := by decide
  txOut_nodup := by decide
  txIn_nodup := by decide
  maTxOut_nodup := by decide
  multiAsset_nodup := by decide
  datum_nodup := by decide
  tx_id := by decide
  txOut_id := by decide
  multiAsset_id := by decide
  txIn_output := by decide

def sampleObserver : Setup ℕ :=
  ⟨⟨10, fun _ => false⟩, fun _ => none, .consumed, observerScripts sampleScripts sampleToken⟩

theorem getAsset_sampleTokens (token : BigNum) (policyId : PolicyId) (assetName : AssetName) :
    (sampleTokens 1 token 0).getAsset policyId assetName =
      if policyId = .filled 28 3 ∧ assetName = [114] then token
      else if policyId = .filled 28 1 ∧ assetName = [] then 1 else 0 := by
  simp only [sampleTokens, MultiAsset.getAsset_setAsset, MultiAsset.getAsset_empty]
  by_cases hother : policyId = .filled 28 3 ∧ assetName = [120]
  · simp [hother]
  · simp [hother]

/-- The rows of both outputs at the illiquid supply list the auth token and the balance. -/
theorem sampleReleaseDatabase_holds {row : TxOutRow} {tokens : MultiAsset} {amount : BigNum}
    (hrow : row = spentRow ∧ amount = 5 ∨ row = createdRow ∧ amount = 8)
    (htokens : ∀ policyId assetName, tokens.getAsset policyId assetName =
      if policyId = .filled 28 3 ∧ assetName = [114] then amount
      else if policyId = .filled 28 1 ∧ assetName = [] then 1 else 0) :
    Holds sampleReleaseDatabase row tokens := by
  have hid : ⟨amount.toNat, row.id, 1⟩ ∈ sampleReleaseDatabase.maTxOut ∧
      ⟨1, row.id, 2⟩ ∈ sampleReleaseDatabase.maTxOut := by
    rcases hrow with ⟨rfl, rfl⟩ | ⟨rfl, rfl⟩ <;> decide
  constructor
  · intro policyId assetName hheld
    rw [htokens] at hheld
    split_ifs at hheld with htoken hauth
    · exact ⟨⟨1, .filled 28 3, [114]⟩, by simp [sampleReleaseDatabase], htoken.1.symm,
        htoken.2.symm, _, hid.1, rfl, rfl⟩
    · exact ⟨⟨2, .filled 28 1, []⟩, by simp [sampleReleaseDatabase], hauth.1.symm,
        hauth.2.symm, _, hid.2, rfl, rfl⟩
    · exact absurd rfl hheld
  · intro held hheld asset hasset hheldRow hheldAsset
    have hdifferent : (Bytes.filled 28 1 : PolicyId) ≠ Bytes.filled 28 3 := by decide
    rw [htokens]
    simp only [sampleReleaseDatabase, List.mem_cons, List.not_mem_nil, or_false] at hheld hasset
    rcases hrow with ⟨rfl, rfl⟩ | ⟨rfl, rfl⟩
    all_goals
      rcases hasset with rfl | rfl <;> rcases hheld with rfl | rfl | rfl | rfl <;>
        simp_all [spentRow, createdRow]

/-- The output of the release has the auth token and the new balance. -/
theorem getAsset_sampleRelease {icsTokens : MultiAsset}
    (hics : ∀ policyId assetName, icsTokens.getAsset policyId assetName =
      (sampleIcsUtxo 0).value.nativeTokens.getAsset policyId assetName)
    (policyId : PolicyId) (assetName : AssetName) :
    MultiAsset.getAsset (icsTokens.insert sampleToken.policyId (AList.singleton
        sampleToken.assetName.toList (BigNum.saturatingAdd 3
          ((sampleIcsUtxo 0).getAssetAmount sampleToken)))) policyId assetName =
      if policyId = .filled 28 3 ∧ assetName = [114] then 8
      else if policyId = .filled 28 1 ∧ assetName = [] then 1 else 0 := by
  have hbalance : BigNum.saturatingAdd 3 ((sampleIcsUtxo 0).getAssetAmount sampleToken) = 8 := rfl
  have hdifferent : (Bytes.filled 28 1 : PolicyId) ≠ Bytes.filled 28 3 := by decide
  rw [getAsset_insert_singleton, hbalance, hics, sampleIcsUtxo, getAsset_sampleTokens]
  by_cases hpolicy : policyId = .filled 28 3
  · by_cases hname : assetName = [114]
    · simp [hpolicy, hname, sampleToken]
    · simp [hpolicy, hname, sampleToken, hdifferent.symm]
  · simp [hpolicy, sampleToken]

theorem sampleIcsUtxo_isRowOf : IsRowOf sampleReleaseDatabase (sampleIcsUtxo 0) spentRow where
  address := rfl
  index := rfl
  tx := ⟨⟨1, .filled 32 7, 1, 0⟩, by simp [sampleReleaseDatabase], rfl, rfl⟩
  tokens := sampleReleaseDatabase_holds (.inl ⟨rfl, rfl⟩) (getAsset_sampleTokens 5)

theorem spent_sampleRelease {inputs : List UtxoId} (h : (sampleIcsUtxo 0).utxoId ∈ inputs) :
    (([(sampleReserve 0).utxo, sampleIcsUtxo 0].filter fun utxo => utxo.utxoId ∈ inputs).filter
      fun utxo => utxo.address = "addr_ics") = [sampleIcsUtxo 0] := by
  have haddress : ([(sampleReserve 0).utxo, sampleIcsUtxo 0].filter
      fun utxo => utxo.address = "addr_ics") = [sampleIcsUtxo 0] := rfl
  rw [List.filter_comm, haddress]
  simp [h]

theorem sampleRelease_recorded {built : Transaction}
    (h : sampleRelease.build sampleLib samplePayer sampleScripts = .ok built) :
    Recorded .consumed sampleReleaseDatabase "addr_ics" built releaseTxRow 5 createdRow := by
  obtain ⟨tx, hrelease, hbuilt⟩ := bind_eq_ok_iff.mp h
  obtain rfl := Except.ok.inj hbuilt
  obtain ⟨builder, leftInReserve, icsTokens, reserveTokens, hbuilder, htx⟩ :=
    exists_releaseBuilder hrelease
  obtain ⟨added, change, hfrom⟩ := exists_builtFrom htx
  refine {
    tx_mem := by simp [sampleReleaseDatabase]
    block := ⟨⟨2, .filled 32 2, some 5, some 0, some 100, 2000⟩,
      by simp [sampleReleaseDatabase], rfl, rfl⟩
    out_mem := by simp [sampleReleaseDatabase]
    out_tx := rfl
    out_only := ?_
    outputs := ?_
    inputs := ⟨some spentRow, ⟨?_, ?_⟩, ?_⟩ }
  · intro other hother htx
    simp only [sampleReleaseDatabase, List.mem_cons, List.not_mem_nil, or_false] at hother
    rcases hother with rfl | rfl
    · cases htx
    · exact fun _ => rfl
  · intro output houtput haddress
    have houtputs : tx.outputs = builder.outputs ++ change := by rw [hfrom.tx_eq]; rfl
    rw [houtputs, hbuilder.outputs] at houtput
    simp only [List.cons_append, List.nil_append, List.mem_cons] at houtput
    rcases houtput with rfl | rfl | hchange
    · refine ⟨rfl, sampleReleaseDatabase_holds (.inr ⟨rfl, rfl⟩)
        (getAsset_sampleRelease hbuilder.ics_eq), ?_⟩
      rintro data ⟨⟩
      exact ⟨_, List.mem_singleton_self _, rfl, rfl⟩
    · have haddress : "addr_reserve" = "addr_ics" := haddress
      exact absurd haddress (by decide)
    · have haddress := (hfrom.change_address _ hchange).symm.trans haddress
      exact absurd haddress (by decide)
  · rintro row ⟨⟩
    simp [sampleReleaseDatabase]
  · intro row hrow
    simp only [sampleReleaseDatabase, List.mem_cons, List.not_mem_nil, or_false] at hrow
    rcases hrow with rfl | rfl
    · simp [Spends, spentRow, releaseTxRow]
    · simp [Spends, spentRow, createdRow, releaseTxRow]
  · have hspent : (sampleIcsUtxo 0).utxoId ∈ tx.inputs := by
      rw [hfrom.tx_eq, TransactionBuilder.mem_build_inputs, hbuilder.scriptIds_eq]
      simp
    rw [spent_sampleRelease hspent]
    exact .cons sampleIcsUtxo_isRowOf .nil

def sampleReleaseUtxo : BridgeUtxo :=
  ⟨5, 0, .filled 32 8, 0, 8, 5, some (TokenTransferDatum.toPlutusData .reserveTransfer)⟩

theorem sampleRelease_read :
    readUtxos (Relational.Arrangement.stable _) sampleObserver.txInConfiguration
        sampleReleaseDatabase sampleObserver.scripts (.block 4)
        sampleObserver.maxTransfers (.filled 32 2) = .ok (5, [sampleReleaseUtxo]) := by
  rfl

end Sample

end PartnerChains.SmartContracts
