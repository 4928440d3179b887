import PartnerChains.Model.UpsertLedger
import PartnerChains.Verification.SmartContracts.GovernedMap

/-!
# What upserts leave on the chain

An update spends the output that it has read, so the ledger takes it only if nothing was written
since. Insertions do not know of each other: after a second one every query and every upsert fails.
-/

namespace PartnerChains.SmartContracts

open AuthoritySelection Fallible MapOutputs PermissionedCandidates

/-! ## Datums -/

theorem decodeLegacy_dParamDatum {permissioned registered : PlutusData} {p r : UInt16}
    (hp : permissioned.asU16 = some p) (hr : registered.asU16 = some r) :
    DParamDatum.decodeLegacy (.list [permissioned, registered]) = .ok (.v0 p r) := by
  simp [DParamDatum.decodeLegacy, PlutusData.asList, hp, hr]

theorem asU16_toNat (value : UInt16) : (PlutusData.integer value.toNat).asU16 = some value := by
  rw [RegisteredCandidates.asU16_integer value.toNat_lt, UInt16.ofNat_toNat]

theorem decode_dParameterToPlutusData (dParameter : DParameter) :
    DParamDatum.decode (dParameterToPlutusData dParameter) =
      .ok (.v0 dParameter.numPermissionedCandidates dParameter.numRegisteredCandidates) := by
  rw [DParamDatum.decode, dParameterToPlutusData,
    plutusDataVersionAndPayload_toPlutusData (show 0 < 2 ^ 64 by decide)]
  simp only [DParamDatum.decodeVersioned]
  rw [decodeLegacy_dParamDatum (asU16_toNat _) (asU16_toNat _)]
  rfl

theorem dParamKept_decode_encode (dParameter : DParameter) :
    dParamKept.decode (dParamKept.encode dParameter) = .ok dParameter := by
  have hdecode (data : PlutusData) :
    dParamKept.decode data = (DParamDatum.decode data).map DParamDatum.toDParameter := rfl
  have hencode : dParamKept.encode dParameter = dParameterToPlutusData dParameter := rfl
  rw [hencode, hdecode, decode_dParameterToPlutusData]
  rfl

/-- A list that is written in version 0 has the keys in the order in which they are read. -/
def AuraKeysFirst (candidates : List PermissionedCandidateData) : Prop :=
  (∀ candidate ∈ candidates, hasOnlyAuraAndGrandpaKeys candidate.keys = true) →
    ∀ candidate ∈ candidates, candidate.keys.head?.map (·.id) = some auraKeyTypeId

theorem exists_decode_eq {candidates : List PermissionedCandidateData}
    (h : AuraKeysFirst candidates) :
    ∃ datums, PermissionedCandidateDatums.decode (permissionedCandidatesToPlutusData candidates) =
      .ok datums ∧ datums.toCandidates = candidates := by
  unfold permissionedCandidatesToPlutusData
  by_cases hall : ∀ candidate ∈ candidates, hasOnlyAuraAndGrandpaKeys candidate.keys = true
  · rw [if_pos (List.all_eq_true.mpr hall), decode_toPlutusDataV0 hall]
    refine ⟨_, rfl, ?_⟩
    rw [PermissionedCandidateDatums.toCandidates, List.map_map]
    refine (List.map_congr_left fun candidate hmem => ?_).trans (List.map_id _)
    have hfirst := h hall candidate hmem
    obtain ⟨sidechainPublicKey, keys⟩ := candidate
    obtain ⟨aura, grandpa, rfl | rfl⟩ := hasOnlyAuraAndGrandpaKeys_iff.mp (hall _ hmem)
    · rfl
    · exact absurd (Option.some.inj hfirst).symm auraKeyTypeId_ne
  · rw [if_neg (mt List.all_eq_true.mp hall), decode_toPlutusDataV1]
    exact ⟨_, rfl, (List.map_map ..).trans (List.map_id candidates)⟩

theorem orderKey_injective : Function.Injective PermissionedCandidateData.orderKey := by
  have hbytes : Function.Injective (List.map UInt8.toNat) :=
    List.map_injective_iff.mpr fun _ _ h => UInt8.toNat_inj.mp h
  have hkey : Function.Injective fun key : CandidateKey =>
      toLex (key.id.val.map UInt8.toNat, key.bytes.map UInt8.toNat) := by
    rintro ⟨id, bytes⟩ ⟨id', bytes'⟩ h
    obtain ⟨hid, hsame⟩ := Prod.mk.inj (toLex.injective h)
    exact congrArg₂ CandidateKey.mk (Subtype.ext (hbytes hid)) (hbytes hsame)
  rintro ⟨publicKey, keys⟩ ⟨publicKey', keys'⟩ h
  obtain ⟨hpublicKey, hkeys⟩ := Prod.mk.inj (toLex.injective h)
  exact congrArg₂ PermissionedCandidateData.mk (hbytes hpublicKey)
    (List.map_injective_iff.mpr hkey hkeys)

/-- Sorted lists are equal when they have the same candidates. -/
theorem sortCandidates_eq_iff {a b : List PermissionedCandidateData} :
    sortCandidates a = sortCandidates b ↔ a.Perm b := by
  refine ⟨fun h => ?_, StableOrder.sortByKey_eq_of_perm orderKey_injective⟩
  have ha : (sortCandidates a).Perm a := StableOrder.sortByKey_perm a
  rw [h] at ha
  exact ha.symm.trans (StableOrder.sortByKey_perm b)

theorem permissionedCandidatesKept_decode_encode {candidates : List PermissionedCandidateData}
    (h : AuraKeysFirst candidates) :
    permissionedCandidatesKept.decode (permissionedCandidatesKept.encode
      (sortCandidates candidates)) = .ok (sortCandidates candidates) := by
  have hsorted : AuraKeysFirst (sortCandidates candidates) := fun hall candidate hmem =>
    h (fun candidate hmem => hall candidate (StableOrder.mem_sortByKey.mpr hmem)) candidate
      (StableOrder.mem_sortByKey.mp hmem)
  obtain ⟨datums, hdecode, hdatums⟩ := exists_decode_eq hsorted
  have hagain : sortCandidates datums.toCandidates = sortCandidates candidates := by
    rw [hdatums]
    exact (StableOrder.pairwise_sortByKey candidates).insertionSort_eq
  exact (congrArg (Except.map _) hdecode).trans (congrArg Except.ok hagain)

/-! ## What an upsert submits -/

/-- An upsert finds its value there already, or makes a transaction from what was read. -/
structure Upsert.Meets {Value : Type} (upsert : Upsert Value) (env : UpsertEnv) : Prop where
  cases : ∀ {caller value result?}, upsert.run env caller value = .ok result? →
    (result? = none ∧
      ∃ utxo, upsert.current env caller.validatorUtxos = .ok (some (utxo, upsert.written value))) ∨
    ∃ governanceData result txName, caller.governance = .ok governanceData ∧
      result? = some result ∧
      submitOrCreateTxToSign caller.client caller.wallets caller.orders governanceData caller.ctx
        (upsert.makeTx env caller.validatorUtxos value governanceData) txName = .ok result

section Submission

variable {Value : Type} {upsert : Upsert Value} {env : UpsertEnv} {caller : UpsertCaller}
  {validatorUtxos : List OgmiosUtxo} {value : Value}

theorem makeTx_of_none (h : upsert.current env validatorUtxos = .ok none) :
    upsert.makeTx env validatorUtxos value = mintTokenTx upsert.kept env.lib env.nativeScriptHash
      env.validator env.policy (upsert.written value) := by
  funext governanceData costs ctx
  simp only [Upsert.makeTx, h]

theorem makeTx_of_some {utxo : OgmiosUtxo} {current : Value}
    (h : upsert.current env validatorUtxos = .ok (some (utxo, current))) :
    upsert.makeTx env validatorUtxos value = updateTokenTx upsert.kept env.lib env.nativeScriptHash
      env.validator env.policy (upsert.written value) utxo := by
  funext governanceData costs ctx
  simp only [Upsert.makeTx, h]

theorem exists_submitted_of_governedTx {client : Client} {wallets : TemporaryWallets}
    {orders : IterationOrders} {ctx : TransactionContext} {governanceData : GovernanceData}
    {makeTx : GovernanceData → Costs → TransactionContext → Except BuildError BalancedTransaction}
    {txName : String} {result? : Option MultiSigSmartContractResult}
    (h : governedTx client wallets orders ctx (.ok governanceData) txName makeTx = .ok result?) :
    ∃ result, result? = some result ∧ submitOrCreateTxToSign client wallets orders governanceData
      ctx (makeTx governanceData) txName = .ok result := by
  obtain ⟨data, hdata, hrest⟩ := bind_eq_ok_iff.mp h
  obtain ⟨result, hresult, hmade⟩ := bind_eq_ok_iff.mp hrest
  rw [← Except.ok.inj hdata] at hresult
  exact ⟨result, (Except.ok.inj hmade).symm, hresult⟩

end Submission

theorem dParamUpsert_meets (env : UpsertEnv) : dParamUpsert.Meets env where
  cases {caller value result?} hrun := by
    obtain ⟨current, hcurrent, hrun⟩ := bind_eq_ok_iff.mp hrun
    have hcurrent : dParamUpsert.current env caller.validatorUtxos = .ok current :=
      mapError_eq_ok_iff.mp hcurrent
    cases current with
    | none =>
        obtain ⟨data, result, hdata, hresult, hsubmitted⟩ := submitted_of_governedTx hrun
        rw [makeTx_of_none hcurrent]
        exact .inr ⟨data, result, _, hdata, hresult, hsubmitted⟩
    | some current =>
        dsimp only at hrun
        split_ifs at hrun with heq
        · exact .inl ⟨(Except.ok.inj hrun).symm, current.1, heq ▸ hcurrent⟩
        · obtain ⟨data, result, hdata, hresult, hsubmitted⟩ := submitted_of_governedTx hrun
          rw [makeTx_of_some hcurrent]
          exact .inr ⟨data, result, _, hdata, hresult, hsubmitted⟩

/-- The governance is not looked at when nothing is to be changed. -/
theorem dParamUpsert_skips {env : UpsertEnv} {caller : UpsertCaller} {dParameter : DParameter}
    {utxo : OgmiosUtxo}
    (h : dParamUpsert.current env caller.validatorUtxos = .ok (some (utxo, dParameter))) :
    dParamUpsert.run env caller dParameter = .ok none := by
  have hcurrent : getCurrentDParameter env.fromBytes env.policy caller.validatorUtxos =
    .ok (some (utxo, dParameter)) := h
  simp [dParamUpsert, upsertDParam, hcurrent]

theorem permissionedCandidatesUpsert_meets (env : UpsertEnv) :
    permissionedCandidatesUpsert.Meets env where
  cases {caller value result?} hrun := by
    obtain ⟨data, hdata, hrun⟩ := bind_eq_ok_iff.mp hrun
    obtain ⟨current, hcurrent, hrun⟩ := bind_eq_ok_iff.mp hrun
    have hcurrent : permissionedCandidatesUpsert.current env caller.validatorUtxos = .ok current :=
      mapError_eq_ok_iff.mp hcurrent
    cases current with
    | none =>
        obtain ⟨result, hresult, hsubmitted⟩ := exists_submitted_of_governedTx hrun
        rw [makeTx_of_none hcurrent]
        exact .inr ⟨data, result, _, hdata, hresult, hsubmitted⟩
    | some current =>
        dsimp only at hrun
        -- both lists are sorted when they are compared
        split_ifs at hrun with heq
        · refine .inl ⟨(Except.ok.inj hrun).symm, current.1, hcurrent.trans ?_⟩
          exact congrArg (fun value => Except.ok (some (current.1, value))) heq
        · obtain ⟨result, hresult, hsubmitted⟩ := exists_submitted_of_governedTx hrun
          rw [makeTx_of_some hcurrent]
          exact .inr ⟨data, result, _, hdata, hresult, hsubmitted⟩

theorem permissionedCandidatesUpsert_skips {env : UpsertEnv} {caller : UpsertCaller}
    {candidates : List PermissionedCandidateData} {governanceData : GovernanceData}
    {utxo : OgmiosUtxo} (hgovernance : caller.governance = .ok governanceData)
    (h : permissionedCandidatesUpsert.current env caller.validatorUtxos =
      .ok (some (utxo, sortCandidates candidates))) :
    permissionedCandidatesUpsert.run env caller candidates = .ok none := by
  have hcurrent : getCurrentPermissionedCandidates env.fromBytes env.policy
    caller.validatorUtxos = .ok (some (utxo, sortCandidates candidates)) := h
  simp [permissionedCandidatesUpsert, upsertPermissionedCandidates, hgovernance, hcurrent]

/-! ## Transactions -/

section Steps

variable {Value : Type} {upsert : Upsert Value} {env : UpsertEnv} {l l' : ValidatorLedger}
  {caller : UpsertCaller} {value : Value} {governanceData : GovernanceData} {costs : Costs}
  {ctx : TransactionContext} {tx : BalancedTransaction} {validatorUtxos : List OgmiosUtxo}

theorem makeTx_replaces (hchange : ctx.changeAddress ≠ env.validator.address)
    (h : upsert.makeTx env validatorUtxos value governanceData costs ctx = .ok tx) :
    ∃ current supplyChange, upsert.current env validatorUtxos = .ok current ∧
      Replaces env.validator env.policy ctx tx (current.map (·.1)).toList
        [outputWithOneScriptToken env.validator env.policy
          (upsert.kept.encode (upsert.written value))] supplyChange := by
  unfold Upsert.makeTx at h
  split at h
  · rename_i hcurrent
    obtain ⟨units, -, h⟩ := bind_eq_ok_iff.mp h
    obtain ⟨minting, -, h⟩ := bind_eq_ok_iff.mp h
    obtain ⟨added, change, hbuilt⟩ := exists_builtFrom h
    exact ⟨none, _, hcurrent, replaces_of_builtFrom hbuilt rfl rfl
      (by simp [outputWithOneScriptToken]) hchange rfl⟩
  · rename_i utxo current hcurrent
    obtain ⟨units, -, h⟩ := bind_eq_ok_iff.mp h
    obtain ⟨input, hinput, h⟩ := bind_eq_ok_iff.mp h
    obtain ⟨minting, -, h⟩ := bind_eq_ok_iff.mp h
    obtain ⟨added, change, hbuilt⟩ := exists_builtFrom h
    obtain rfl := addScriptUtxoInput_eq_ok hinput
    exact ⟨some (utxo, current), _, hcurrent, replaces_of_builtFrom hbuilt rfl rfl
      (by simp [outputWithOneScriptToken]) hchange rfl⟩
  · cases h

/-- The transaction is made for the payment key or for a temporary wallet. -/
theorem exists_made_of_informs (hmeets : upsert.Meets env) (hinforms : env.Informs l caller)
    {result : MultiSigSmartContractResult}
    (hgovernance : caller.governance = .ok governanceData)
    (hrun : upsert.run env caller value = .ok (some result))
    (hcarries : Carries caller.client caller.orders caller.ctx
      (upsert.makeTx env caller.validatorUtxos value) governanceData result tx) :
    ∃ costs ctx, upsert.makeTx env caller.validatorUtxos value governanceData costs ctx = .ok tx ∧
      Apart ctx l.outputs ∧ ctx.changeAddress ≠ env.validator.address := by
  cases result with
  | transactionSubmitted txHash =>
      obtain ⟨_, costs, -, -, hmade⟩ := Costs.calculateCosts_eq_ok_iff.mp hcarries.1
      exact ⟨costs, caller.ctx, hmade, hinforms.payment, hinforms.change⟩
  | transactionToSign data =>
      obtain ⟨hnone, -⟩ | ⟨_, _, txName, hdata, hresult, hsubmitted⟩ := hmeets.cases hrun
      · cases hnone
      cases hresult
      cases hgovernance.symm.trans hdata
      obtain ⟨wallet, walletCtx, costs, hwallet, hmade⟩ := exists_made_of_toSign hsubmitted
      obtain rfl : data.tx = tx := hcarries
      exact ⟨costs, _, hmade, hinforms.wallet wallet walletCtx hwallet, hinforms.change⟩

/-! ## Steps -/

def tokens (env : UpsertEnv) (utxos : List OgmiosUtxo) : List OgmiosUtxo :=
  utxos.filter (holdsToken env.policy.scriptHash)

/-- An output holds a token and the datum of a value. -/
structure Writes (upsert : Upsert Value) (env : UpsertEnv) (value : Value) (utxo : OgmiosUtxo) :
    Prop where
  holds : holdsToken env.policy.scriptHash utxo = true
  datum : utxo.datum = some (env.toBytes (upsert.kept.encode (upsert.written value)))

variable {utxo : OgmiosUtxo}

theorem writes_of_created (h : Created env.toBytes
      (outputWithOneScriptToken env.validator env.policy
        (upsert.kept.encode (upsert.written value))) utxo) : Writes upsert env value utxo := by
  refine ⟨?_, h.datum⟩
  have hinsert : MultiAsset.withAssetAmount ∅ (emptyNameAsset env.policy.scriptHash) 1 =
    MultiAsset.setAsset ∅ env.policy.scriptHash [] 1 := rfl
  rw [holdsToken, h.nativeTokens, outputWithOneScriptToken, hinsert, MultiAsset.setAsset,
    AList.lookup_insert]
  rfl

theorem mem_tokens_of_current {current : Value}
    (h : upsert.current env validatorUtxos = .ok (some (utxo, current))) :
    utxo ∈ tokens env validatorUtxos := by
  unfold Upsert.current getCurrent at h
  dsimp only at h
  split_ifs at h
  split at h
  · cases h
  · rename_i found hfound
    obtain ⟨_, -, h⟩ := bind_eq_ok_iff.mp h
    obtain ⟨_, -, h⟩ := bind_eq_ok_iff.mp h
    obtain ⟨_, -, h⟩ := bind_eq_ok_iff.mp h
    cases h
    exact List.mem_of_mem_head? hfound

/-- What pays for the transaction is not at the validator. -/
theorem mem_inputs_iff_replaced {replaced : List OgmiosUtxo} {outputs : List TransactionOutput}
    {supplyChange : ℤ} (h : Replaces env.validator env.policy ctx tx replaced outputs supplyChange)
    (hapart : Apart ctx l.outputs) (hmem : utxo ∈ l.unspent) :
    utxo.utxoId ∈ tx.inputs ↔ utxo.utxoId ∈ replaced.map (·.utxoId) := by
  refine ⟨fun hid => (h.inputs _ hid).resolve_right fun hpays => ?_, fun hid => ?_⟩
  · obtain ⟨payment, hpayment, heq⟩ := List.mem_map.mp hpays
    exact hapart payment hpayment utxo (OutputLedger.mem_unspent.mp hmem).1 heq
  · obtain ⟨spent, hspent, heq⟩ := List.mem_map.mp hid
    exact heq ▸ h.spends spent hspent

/-- What a step does to the outputs with a token. -/
inductive TokensAfter (upsert : Upsert Value) (env : UpsertEnv) (before : List OgmiosUtxo) :
    UpsertEvent Value → List OgmiosUtxo → Prop
  | inserted {value : Value} {utxo : OgmiosUtxo} (writes : Writes upsert env value utxo) :
      TokensAfter upsert env before (.inserted value) (before ++ [utxo])
  | updated {value : Value} {utxo replaced : OgmiosUtxo} (writes : Writes upsert env value utxo)
      (found : replaced ∈ before) :
      TokensAfter upsert env before (.updated value) (before.erase replaced ++ [utxo])
  | payment : TokensAfter upsert env before .payment before

theorem tokensAfter_of_step (hmeets : upsert.Meets env) {event : UpsertEvent Value}
    (hstep : upsert.Step env l event l') :
    TokensAfter upsert env (tokens env l.unspent) event (tokens env l'.unspent) := by
  cases hstep with
  | @payment _ created noToken applies =>
      have hnone : tokens env created = [] := List.filter_eq_nil_iff.mpr fun utxo hutxo => by
        simp [noToken utxo hutxo]
      have hkept : tokens env l'.unspent = tokens env l.unspent ++ tokens env created :=
        applies.filter_of_kept _ (by simp)
      rw [hkept, hnone, List.append_nil]
      exact .payment
  | @upserted _ caller value _ _ tx _ informs runs governance carries creates applies =>
      obtain ⟨costs, ctx, hmade, hapart, hchange⟩ :=
        exists_made_of_informs hmeets informs governance runs carries
      obtain ⟨current, _, hcurrent, hreplaces⟩ := makeTx_replaces hchange hmade
      rw [hreplaces.outputs] at creates
      obtain ⟨utxo, _, hutxo, hrest, rfl⟩ := List.forall₂_cons_left_iff.mp creates
      cases hrest
      have hwrites := writes_of_created hutxo
      have hcreated : tokens env [utxo] = [utxo] := by simp [tokens, hwrites.holds]
      have hinputs (utxo : OgmiosUtxo) (hmem : utxo ∈ l.unspent) :=
        mem_inputs_iff_replaced hreplaces hapart hmem
      cases current with
      | none =>
          have hkept : tokens env l'.unspent = tokens env l.unspent ++ tokens env [utxo] :=
            applies.filter_of_kept _ fun o ho _ => by simp [hinputs o ho]
          rw [hkept, hcreated, Upsert.event, hcurrent]
          exact .inserted hwrites
      | some current =>
          obtain ⟨replaced, currentValue⟩ := current
          obtain ⟨hview, hholds⟩ := List.mem_filter.mp (mem_tokens_of_current hcurrent)
          have hunspent : replaced ∈ l.unspent := OutputLedger.mem_unspent.mpr
            ⟨informs.validatorUtxos _ hview,
              applies.inputs_unspent _ (hreplaces.spends _ (by simp))⟩
          have hreplaced : tokens env l'.unspent =
              (tokens env l.unspent).erase replaced ++ tokens env [utxo] :=
            applies.filter_of_replaced _ hunspent fun o ho _ => by simp [hinputs o ho]
          rw [hreplaced, hcreated, Upsert.event, hcurrent]
          exact .updated hwrites (List.mem_filter.mpr ⟨hunspent, hholds⟩)

/-! ## Runs -/

open UpsertEvent

/-- There is a token for each insertion, and a single one is with the value upserted last. -/
structure Tracks (upsert : Upsert Value) (env : UpsertEnv) (trace : List (UpsertEvent Value))
    (utxos : List OgmiosUtxo) : Prop where
  count : utxos.length = inserts trace
  last : utxos.length = 1 → ∀ utxo ∈ utxos,
    ∃ value, lastUpserted trace = some value ∧ Writes upsert env value utxo

variable {trace : List (UpsertEvent Value)}

theorem Tracks.after {event : UpsertEvent Value} {before after : List OgmiosUtxo}
    (h : Tracks upsert env trace before) (hafter : TokensAfter upsert env before event after) :
    Tracks upsert env (trace ++ [event]) after := by
  have hcount := h.count
  cases hafter with
  | @inserted value utxo writes =>
      refine ⟨by simpa [inserts, isInserted] using hcount, fun hone utxo' hutxo' => ?_⟩
      obtain rfl : before = [] := List.eq_nil_of_length_eq_zero (by simpa using hone)
      obtain rfl : utxo' = utxo := by simpa using hutxo'
      exact ⟨value, by simp [lastUpserted, value?], writes⟩
  | @updated value utxo replaced writes found =>
      have hlength : (before.erase replaced).length + 1 = before.length := by
        rw [List.length_erase_of_mem found]
        have := List.length_pos_of_mem found
        omega
      refine ⟨by simpa [inserts, isInserted, hlength] using hcount, fun hone utxo' hutxo' => ?_⟩
      -- a single token after an update was the one that is replaced, whatever its value was
      have hnil : before.erase replaced = [] := List.eq_nil_of_length_eq_zero (by simpa using hone)
      obtain rfl : utxo' = utxo := by simpa [hnil] using hutxo'
      exact ⟨value, by simp [lastUpserted, value?], writes⟩
  | payment =>
      refine ⟨by simpa [inserts, isInserted] using hcount, fun hone utxo hutxo => ?_⟩
      obtain ⟨value, hlast, hwrites⟩ := h.last hone utxo hutxo
      exact ⟨value, by simpa [lastUpserted, value?] using hlast, hwrites⟩

theorem tracks_of_run (hmeets : upsert.Meets env) (run : (upsert.system env).Run trace l) :
    Tracks upsert env trace (tokens env l.unspent) := by
  induction run with
  | start hinit =>
      cases hinit
      exact ⟨rfl, fun hone => absurd hone Nat.zero_ne_one⟩
  | step _ hstep ih => exact ih.after (tokensAfter_of_step hmeets hstep)

/-- What a query finds, from the events. -/
def found (upsert : Upsert Value) (trace : List (UpsertEvent Value)) :
    Except AnyhowError (Option Value) :=
  if inserts trace = 0 then .ok none
  else if inserts trace = 1 then .ok ((lastUpserted trace).map upsert.written)
  else .error ⟨upsert.kept.multipleUtxos⟩

theorem current_of_run (hmeets : upsert.Meets env) (run : (upsert.system env).Run trace l)
    (hread : ∀ value, lastUpserted trace = some value →
      env.fromBytes (env.toBytes (upsert.kept.encode (upsert.written value))) =
        some (upsert.kept.encode (upsert.written value)) ∧
      upsert.kept.decode (upsert.kept.encode (upsert.written value)) = .ok (upsert.written value))
    {queried : List OgmiosUtxo} (hqueried : queried.Perm l.unspent) :
    (upsert.current env queried).map (Option.map (·.2)) = found upsert trace := by
  have hperm : (tokens env queried).Perm (tokens env l.unspent) := hqueried.filter _
  obtain ⟨hcount, hlast⟩ := tracks_of_run hmeets run
  have hlast : (tokens env queried).length = 1 → ∀ utxo ∈ tokens env queried,
      ∃ value, lastUpserted trace = some value ∧ Writes upsert env value utxo :=
    fun hone utxo hutxo => hlast (hperm.length_eq ▸ hone) utxo (hperm.mem_iff.mp hutxo)
  rw [← hperm.length_eq] at hcount
  have hfilter : (queried.filter fun utxo =>
    (utxo.value.nativeTokens.lookup env.policy.scriptHash).isSome) = tokens env queried := rfl
  simp only [found, ← hcount, Upsert.current, getCurrent, hfilter]
  generalize tokens env queried = utxos at hlast ⊢
  match utxos with
  | [] => rfl
  | [utxo] =>
      obtain ⟨value, hvalue, hwrites⟩ := hlast rfl utxo List.mem_cons_self
      obtain ⟨hbytes, hdecode⟩ := hread value hvalue
      simp [hwrites.datum, hbytes, hdecode, hvalue, Except.map]
  -- no datum is read when there are several
  | _ :: _ :: _ => simp [Except.map]

theorem current_of_two_inserts (hmeets : upsert.Meets env) {trace more : List (UpsertEvent Value)}
    (run : (upsert.system env).Run (trace ++ more) l) (htwo : 2 ≤ inserts trace)
    {queried : List OgmiosUtxo} (hqueried : queried.Perm l.unspent) :
    upsert.current env queried = .error ⟨upsert.kept.multipleUtxos⟩ := by
  have hlength : (tokens env queried).length = inserts (trace ++ more) :=
    (hqueried.filter _).length_eq.trans (tracks_of_run hmeets run).count
  have hmany : (tokens env queried).length > 1 := by
    rw [hlength, inserts, List.countP_append]
    exact Nat.le_add_right_of_le htwo
  exact if_pos hmany

theorem run_eq_none_iff (hmeets : upsert.Meets env)
    (hskips : ∀ utxo, upsert.current env caller.validatorUtxos =
      .ok (some (utxo, upsert.written value)) → upsert.run env caller value = .ok none) :
    upsert.run env caller value = .ok none ↔
      (upsert.current env caller.validatorUtxos).map (Option.map (·.2)) =
        .ok (some (upsert.written value)) := by
  constructor
  · intro hrun
    rcases hmeets.cases hrun with ⟨-, utxo, hcurrent⟩ | ⟨_, _, _, -, hresult, -⟩
    · rw [hcurrent]
      rfl
    · cases hresult
  · intro hcurrent
    cases hfound : upsert.current env caller.validatorUtxos with
    | error error =>
        rw [hfound] at hcurrent
        cases hcurrent
    | ok current =>
        rw [hfound] at hcurrent
        obtain ⟨⟨utxo, _⟩, rfl, rfl⟩ := Option.map_eq_some_iff.mp (Except.ok.inj hcurrent)
        exact hskips utxo hfound

end Steps

/-! ## The D-parameter and the permissioned candidates -/

open UpsertEvent

theorem getDParam_eq (env : UpsertEnv) (queried : List OgmiosUtxo) :
    getDParam env.fromBytes env.policy queried =
      (dParamUpsert.current env queried).map (Option.map (·.2)) := by
  change (dParamUpsert.current env queried >>= _) = _
  cases dParamUpsert.current env queried <;> rfl

theorem getPermissionedCandidates_eq (env : UpsertEnv) (queried : List OgmiosUtxo) :
    getPermissionedCandidates env.fromBytes env.policy queried =
      (permissionedCandidatesUpsert.current env queried).map (Option.map (·.2)) := by
  change (permissionedCandidatesUpsert.current env queried >>= _) = _
  cases permissionedCandidatesUpsert.current env queried <;> rfl

theorem forall_last {Value : Type} {trace : List (UpsertEvent Value)} {P : Value → Prop}
    (h : ∀ event ∈ trace, ∀ value ∈ event.value?, P value) :
    ∀ value, lastUpserted trace = some value → P value := by
  intro value hlast
  obtain ⟨event, hevent, hvalue⟩ := List.mem_filterMap.mp (List.mem_of_getLast? hlast)
  exact h event hevent value hvalue

theorem found_eq_ok_some_iff {Value : Type} {upsert : Upsert Value}
    {trace : List (UpsertEvent Value)} {value : Value} :
    found upsert trace = .ok (some value) ↔
      inserts trace = 1 ∧ (lastUpserted trace).map upsert.written = some value := by
  unfold found
  split_ifs with hzero hone
  · simp [hzero]
  · simp [hone]
  · simp [hone]

/-- Whatever upserts were run, from answers of whatever age, and in whatever order the ledger has
taken their transactions: the D-parameter that is found is the one whose transaction was taken last,
until a second token is minted. An upsert makes no transaction exactly when it is of that value. -/
theorem d_param_is_last_upserted (env : UpsertEnv)
    {trace : List (UpsertEvent DParameter)} {l : ValidatorLedger}
    (run : (dParamUpsert.system env).Run trace l)
    (hdatum : ∀ event ∈ trace, ∀ dParameter ∈ event.value?,
      env.fromBytes (env.toBytes (dParameterToPlutusData dParameter)) =
        some (dParameterToPlutusData dParameter))
    (queried : List OgmiosUtxo) (hqueried : queried.Perm l.unspent) :
    (getDParam env.fromBytes env.policy queried =
      if inserts trace = 0 then .ok none
      else if inserts trace = 1 then .ok (lastUpserted trace)
      else .error ⟨"Multiple UTXOs with D-parameter token found"⟩) ∧
    ∀ (caller : UpsertCaller) (dParameter : DParameter), caller.validatorUtxos = queried →
      (dParamUpsert.run env caller dParameter = .ok none ↔
        inserts trace = 1 ∧ lastUpserted trace = some dParameter) := by
  have hmeets := dParamUpsert_meets env
  have hcurrent := current_of_run hmeets run (fun dParameter hlast =>
    ⟨forall_last hdatum dParameter hlast, dParamKept_decode_encode dParameter⟩) hqueried
  have hlast : (lastUpserted trace).map dParamUpsert.written = lastUpserted trace := Option.map_id'
  refine ⟨?_, fun caller dParameter hview => ?_⟩
  · rw [getDParam_eq, hcurrent, found, hlast]
    rfl
  · rw [run_eq_none_iff hmeets fun _ => dParamUpsert_skips, hview, hcurrent,
      found_eq_ok_some_iff, hlast]
    rfl

/-- Two datums, which are serialized as one byte each. -/
def sampleUpsertEnv (first second : PlutusData) : UpsertEnv where
  lib := sampleLib
  nativeScriptHash _ := .filled 28 9
  fromBytes bytes := some (if bytes = [1] then first else second)
  toBytes data := if data = first then [1] else [2]
  validator := sampleValidator
  policy := samplePolicy

def paymentId (byte : UInt8) : UtxoId := ⟨.filled 32 byte, 0⟩

def sampleUpsertCaller (payment : UInt8) (validatorUtxos : List OgmiosUtxo) : UpsertCaller where
  client := sampleClient
  wallets := noWallets
  orders := sampleOrders
  ctx := { sampleContext with
    paymentKeyUtxos := [⟨paymentId payment, "payment", ⟨10000000, ∅⟩, none⟩] }
  governance := .ok sampleGovernance
  validatorUtxos

theorem sampleUpsertCaller_informs {first second : PlutusData} {l : ValidatorLedger}
    {payment : UInt8} {validatorUtxos : List OgmiosUtxo} (hread : validatorUtxos ⊆ l.outputs)
    (hpays : paymentId payment ∉ l.outputs.map (·.utxoId)) :
    (sampleUpsertEnv first second).Informs l (sampleUpsertCaller payment validatorUtxos) where
  validatorUtxos _ hutxo := hread hutxo
  payment := by
    rintro _ hpayment utxo hutxo heq
    rw [List.mem_singleton.mp hpayment] at heq
    exact hpays (List.mem_map.mpr ⟨utxo, hutxo, heq.symm⟩)
  wallet := by simp [sampleUpsertCaller, noWallets]
  change := by
    change ("payment" : String) ≠ "validator"
    decide

def ledgerWithEntry : ValidatorLedger := ⟨[entryUtxo 1], [paymentId 5], List.nodup_singleton _⟩

theorem entry_applies : OutputLedger.Applies .empty [paymentId 5] [entryUtxo 1] ledgerWithEntry :=
  ⟨by simp [OutputLedger.empty], by decide +kernel, rfl, rfl⟩

/-- The entry is replaced by another one. -/
def ledgerWithUpdate : ValidatorLedger :=
  ⟨[entryUtxo 1, entryUtxo 2], [paymentId 5, (entryUtxo 1).utxoId, paymentId 6], by decide +kernel⟩

theorem update_applies : ledgerWithEntry.Applies [(entryUtxo 1).utxoId, paymentId 6] [entryUtxo 2]
    ledgerWithUpdate :=
  ⟨by decide +kernel, by decide +kernel, rfl, rfl⟩

def dParamEnv : UpsertEnv :=
  sampleUpsertEnv (dParameterToPlutusData ⟨3, 2⟩) (dParameterToPlutusData ⟨4, 1⟩)

theorem dParam_insertion : (dParamUpsert.system dParamEnv).Run [.inserted ⟨3, 2⟩] ledgerWithEntry :=
  .step (.start rfl) (@Upsert.Step.upserted DParameter dParamUpsert dParamEnv .empty
    ledgerWithEntry (sampleUpsertCaller 5 []) ⟨3, 2⟩ sampleGovernance
    (.transactionSubmitted (.filled 32 9)) _ [entryUtxo 1]
    (sampleUpsertCaller_informs (by simp) (by simp [OutputLedger.empty])) rfl rfl
    ⟨rfl, rfl⟩ (.cons ⟨rfl, rfl, rfl⟩ .nil) entry_applies)

/-- A D-parameter is inserted and updated. The new one is found and is not upserted again. -/
theorem d_param_is_last_upserted_updated :
    (dParamUpsert.system dParamEnv).Run [.inserted ⟨3, 2⟩, .updated ⟨4, 1⟩] ledgerWithUpdate ∧
      getDParam dParamEnv.fromBytes samplePolicy [entryUtxo 2] = .ok (some ⟨4, 1⟩) ∧
      dParamUpsert.run dParamEnv (sampleUpsertCaller 7 [entryUtxo 2]) ⟨4, 1⟩ = .ok none ∧
      dParamUpsert.run dParamEnv (sampleUpsertCaller 7 [entryUtxo 2]) ⟨3, 2⟩ ≠ .ok none := by
  have run : (dParamUpsert.system dParamEnv).Run [.inserted ⟨3, 2⟩, .updated ⟨4, 1⟩]
      ledgerWithUpdate :=
    .step dParam_insertion (@Upsert.Step.upserted DParameter dParamUpsert dParamEnv ledgerWithEntry
      ledgerWithUpdate (sampleUpsertCaller 6 [entryUtxo 1]) ⟨4, 1⟩ sampleGovernance
      (.transactionSubmitted (.filled 32 9)) _ [entryUtxo 2]
      (sampleUpsertCaller_informs (by simp [ledgerWithEntry]) (by decide +kernel)) rfl rfl
      ⟨rfl, rfl⟩ (.cons ⟨rfl, rfl, rfl⟩ .nil) update_applies)
  obtain ⟨hfound, hskips⟩ := d_param_is_last_upserted _ run
    (by simp [value?]; exact ⟨rfl, rfl⟩) [entryUtxo 2] (.of_eq rfl)
  refine ⟨run, hfound, (hskips _ ⟨4, 1⟩ rfl).mpr ⟨rfl, rfl⟩, fun h => ?_⟩
  cases ((hskips _ ⟨3, 2⟩ rfl).mp h).2

/-- The same of the permissioned candidates, which are found sorted, as long as the lists that are
written in version 0 have their keys in its order. -/
theorem permissioned_candidates_are_last_upserted (env : UpsertEnv)
    {trace : List (UpsertEvent (List PermissionedCandidateData))} {l : ValidatorLedger}
    (run : (permissionedCandidatesUpsert.system env).Run trace l)
    (hdatum : ∀ event ∈ trace, ∀ candidates ∈ event.value?, env.fromBytes (env.toBytes
      (permissionedCandidatesToPlutusData (sortCandidates candidates))) =
        some (permissionedCandidatesToPlutusData (sortCandidates candidates)))
    (hkeys : ∀ event ∈ trace, ∀ candidates ∈ event.value?, AuraKeysFirst candidates)
    (queried : List OgmiosUtxo) (hqueried : queried.Perm l.unspent) :
    (getPermissionedCandidates env.fromBytes env.policy queried =
      if inserts trace = 0 then .ok none
      else if inserts trace = 1 then .ok ((lastUpserted trace).map sortCandidates)
      else .error ⟨"Multiple UTXOs with permissioned candidates token found"⟩) ∧
    ∀ (caller : UpsertCaller) (governanceData : GovernanceData)
      (candidates : List PermissionedCandidateData),
      caller.validatorUtxos = queried → caller.governance = .ok governanceData →
      (permissionedCandidatesUpsert.run env caller candidates = .ok none ↔
        inserts trace = 1 ∧ ∃ last, lastUpserted trace = some last ∧ last.Perm candidates) := by
  have hmeets := permissionedCandidatesUpsert_meets env
  have hcurrent := current_of_run hmeets run (fun candidates hlast =>
    ⟨forall_last hdatum candidates hlast,
      permissionedCandidatesKept_decode_encode (forall_last hkeys candidates hlast)⟩) hqueried
  refine ⟨?_, fun caller governanceData candidates hview hgovernance => ?_⟩
  · rw [getPermissionedCandidates_eq, hcurrent]
    rfl
  · rw [run_eq_none_iff hmeets fun _ => permissionedCandidatesUpsert_skips hgovernance, hview,
      hcurrent, found_eq_ok_some_iff, Option.map_eq_some_iff]
    refine and_congr_right fun _ => exists_congr fun last => and_congr_right fun _ => ?_
    exact sortCandidates_eq_iff

/-- A candidate that is written in version 0. -/
def auraFirst (byte : UInt8) : PermissionedCandidateData where
  sidechainPublicKey := [byte]
  keys := [⟨auraKeyTypeId, [8]⟩, ⟨grandpaKeyTypeId, [9]⟩]

/-- One candidate is inserted, and another one is added by an update. -/
theorem permissioned_candidates_are_last_upserted_updated :
    let env := sampleUpsertEnv (permissionedCandidatesToPlutusData [auraFirst 2])
      (permissionedCandidatesToPlutusData [auraFirst 1, auraFirst 2])
    (permissionedCandidatesUpsert.system env).Run
        [.inserted [auraFirst 2], .updated [auraFirst 2, auraFirst 1]] ledgerWithUpdate ∧
      getPermissionedCandidates env.fromBytes samplePolicy [entryUtxo 2] =
        .ok (some [auraFirst 1, auraFirst 2]) := by
  intro env
  have inserted : (permissionedCandidatesUpsert.system env).Run [.inserted [auraFirst 2]]
      ledgerWithEntry :=
    .step (.start rfl) (@Upsert.Step.upserted _ _ _ _ _ (sampleUpsertCaller 5 []) [auraFirst 2]
      sampleGovernance (.transactionSubmitted (.filled 32 9)) _ [entryUtxo 1]
      (sampleUpsertCaller_informs (by simp) (by simp [OutputLedger.empty])) rfl rfl ⟨rfl, rfl⟩
      (.cons ⟨rfl, rfl, rfl⟩ .nil) entry_applies)
  have run : (permissionedCandidatesUpsert.system env).Run
      [.inserted [auraFirst 2], .updated [auraFirst 2, auraFirst 1]] ledgerWithUpdate :=
    .step inserted (@Upsert.Step.upserted _ _ _ _ _ (sampleUpsertCaller 6 [entryUtxo 1])
      [auraFirst 2, auraFirst 1] sampleGovernance (.transactionSubmitted (.filled 32 9)) _
      [entryUtxo 2] (sampleUpsertCaller_informs (by simp [ledgerWithEntry]) (by decide +kernel))
      rfl rfl ⟨rfl, rfl⟩ (.cons ⟨rfl, rfl, rfl⟩ .nil) update_applies)
  exact ⟨run, (permissioned_candidates_are_last_upserted env run
    (by simp [value?]; exact ⟨rfl, rfl⟩) (by simp [value?, AuraKeysFirst, auraFirst])
    [entryUtxo 2] (.of_eq rfl)).1⟩

/-- Two upserts that have both found nothing may both be taken. From then on, whatever else is
taken, each upsert that sees the outputs fails: what was inserted twice is not set again. -/
theorem second_insertion_is_final (env : UpsertEnv) :
    (∀ (trace more : List (UpsertEvent DParameter)) (l : ValidatorLedger),
      (dParamUpsert.system env).Run (trace ++ more) l → 2 ≤ inserts trace →
      ∀ (caller : UpsertCaller) (dParameter : DParameter),
        caller.validatorUtxos.Perm l.unspent →
        dParamUpsert.run env caller dParameter =
          .error (.anyhow ⟨"Multiple UTXOs with D-parameter token found"⟩)) ∧
    ∀ (trace more : List (UpsertEvent (List PermissionedCandidateData))) (l : ValidatorLedger),
      (permissionedCandidatesUpsert.system env).Run (trace ++ more) l → 2 ≤ inserts trace →
      ∀ (caller : UpsertCaller) (governanceData : GovernanceData)
        (candidates : List PermissionedCandidateData),
        caller.governance = .ok governanceData → caller.validatorUtxos.Perm l.unspent →
        permissionedCandidatesUpsert.run env caller candidates =
          .error (.anyhow ⟨"Multiple UTXOs with permissioned candidates token found"⟩) := by
  constructor
  · intro trace more l run htwo caller dParameter hview
    have hcurrent : getCurrentDParameter env.fromBytes env.policy caller.validatorUtxos =
      .error ⟨_⟩ := current_of_two_inserts (dParamUpsert_meets env) run htwo hview
    simp only [dParamUpsert, upsertDParam, hcurrent]
    rfl
  · intro trace more l run htwo caller governanceData candidates hgovernance hview
    have hcurrent : getCurrentPermissionedCandidates env.fromBytes env.policy
        caller.validatorUtxos = .error ⟨_⟩ :=
      current_of_two_inserts (permissionedCandidatesUpsert_meets env) run htwo hview
    simp only [permissionedCandidatesUpsert, upsertPermissionedCandidates, hgovernance, hcurrent]
    rfl

def ledgerWithTwo : ValidatorLedger :=
  ⟨[entryUtxo 1, entryUtxo 2], [paymentId 5, paymentId 6], by decide +kernel⟩

/-- The second one has found nothing as well, and pays from another output. -/
theorem second_insertion_is_final_two :
    dParamUpsert.run dParamEnv (sampleUpsertCaller 7 [entryUtxo 1, entryUtxo 2]) ⟨3, 2⟩ =
      .error (.anyhow ⟨"Multiple UTXOs with D-parameter token found"⟩) := by
  have happlies : ledgerWithEntry.Applies [paymentId 6] [entryUtxo 2] ledgerWithTwo :=
    ⟨by decide +kernel, by decide +kernel, rfl, rfl⟩
  have run : (dParamUpsert.system dParamEnv).Run ([.inserted ⟨3, 2⟩, .inserted ⟨4, 1⟩] ++ [])
      ledgerWithTwo :=
    .step dParam_insertion (@Upsert.Step.upserted DParameter dParamUpsert dParamEnv ledgerWithEntry
      ledgerWithTwo (sampleUpsertCaller 6 []) ⟨4, 1⟩ sampleGovernance
      (.transactionSubmitted (.filled 32 9)) _ [entryUtxo 2]
      (sampleUpsertCaller_informs (by simp) (by decide +kernel)) rfl rfl ⟨rfl, rfl⟩
      (.cons ⟨rfl, rfl, rfl⟩ .nil) happlies)
  exact (second_insertion_is_final _).1 _ _ _ run (by decide) (sampleUpsertCaller 7 _) ⟨3, 2⟩
    (.of_eq rfl)

end PartnerChains.SmartContracts
