import PartnerChains.Model.GovernedMapOutputs
import PartnerChains.Verification.SmartContracts.CostAssignment

/-!
# Effects of the operations on the governed map

A transaction spends all entries with the key, and creates at most one. An operation that finds the
value in place makes no transaction, but it looks only at the first entry with the key.
-/

namespace PartnerChains.SmartContracts.MapOutputs

open Fallible

/-! ## Decoding -/

theorem tryFrom_toPlutusData (datum : GovernedMapDatum) :
    GovernedMapDatum.tryFrom datum.toPlutusData = .ok (.ok datum) := by
  have hkey := GovernedMapDatum.stringFromUtf8_toUTF8 datum.key
  simp only [String.toUTF8_eq_toByteArray] at hkey
  simp [GovernedMapDatum.tryFrom, GovernedMapDatum.toPlutusData, PlutusData.asList, PlutusData.get,
    PlutusData.asBytes, hkey]

section Decoding

variable {fromBytes : ByteString → Option PlutusData} {policy : PolicyId} {utxo : OgmiosUtxo}
  {before utxosForKey : List OgmiosUtxo} {key : String} {value : ByteString}

theorem governedMapUtxo_eq_ok {entry : Option (OgmiosUtxo × GovernedMapDatum)}
    (h : ogmiosUtxoToGovernedMapUtxo fromBytes policy utxo = .ok entry) :
    entry = (mapEntry fromBytes policy utxo).map fun datum => (utxo, datum) := by
  cases entry with
  | none => simp [mapEntry, h]
  | some entry =>
      obtain ⟨utxo', datum⟩ := entry
      obtain rfl : utxo' = utxo := by
        unfold ogmiosUtxoToGovernedMapUtxo at h
        split_ifs at h
        · simp at h
        · split at h
          · simp at h
          · obtain ⟨result, -, h⟩ := bind_eq_ok_iff.mp h
            cases result with
            | error e => simp at h
            | ok datum' =>
                obtain ⟨rfl, -⟩ : utxo = utxo' ∧ datum' = datum := by simpa using h
                rfl
      simp [mapEntry, h]

theorem ofEntryWithKey_eq_ok {α : Type} {result : OgmiosUtxo × GovernedMapDatum → α}
    {found : Option α} (h : ofEntryWithKey fromBytes policy key result utxo = .ok found) :
    found = ((mapEntry fromBytes policy utxo).filter fun datum => datum.key = key).map
      fun datum => result (utxo, datum) := by
  obtain ⟨entry, hentry, h⟩ := bind_eq_ok_iff.mp h
  obtain rfl := governedMapUtxo_eq_ok hentry
  cases hdatum : mapEntry fromBytes policy utxo with
  | none => simpa [hdatum, eq_comm] using h
  | some datum =>
      simp only [hdatum, Option.map_some, Except.ok.injEq] at h
      subst h
      by_cases hkey : datum.key = key <;> simp [hkey, Option.filter]

theorem getUtxosForKey_eq_ok
    (h : getUtxosForKey fromBytes before key policy = .ok utxosForKey) :
    utxosForKey = before.filter (hasKey fromBytes policy key) := by
  obtain ⟨hall, rfl⟩ := filterMapM_eq_ok_iff.mp h
  rw [← List.filterMap_eq_filter]
  refine List.filterMap_congr fun utxo hutxo => ?_
  obtain ⟨found, hfound⟩ := hall utxo hutxo
  rw [hfound]
  change found = _
  rw [ofEntryWithKey_eq_ok hfound]
  cases hdatum : mapEntry fromBytes policy utxo with
  | none => simp [hasKey, hdatum, Option.guard]
  | some datum =>
      by_cases hkey : datum.key = key <;>
        simp [hasKey, hdatum, hkey, Option.guard, Option.filter]

theorem hasKey_eq_true_iff : hasKey fromBytes policy key utxo = true ↔
    ∃ datum, mapEntry fromBytes policy utxo = some datum ∧ datum.key = key := by
  simp [hasKey, Option.any_eq_true_iff_get, Option.eq_some_iff_get_eq]

theorem isUnset_iff : IsUnset fromBytes policy key before ↔
    ∀ utxo ∈ before, hasKey fromBytes policy key utxo = false := by
  simp only [IsUnset, ← Bool.not_eq_true, hasKey_eq_true_iff, not_exists, not_and,
    Option.mem_def, ne_eq]

/-- The current value is that of the first entry with the key. -/
theorem head?_valuesOf {current : Option ByteString}
    (h : getCurrentValue fromBytes before key policy = .ok current) :
    (valuesOf fromBytes policy key before).head? = current := by
  rw [valuesOf, List.head?_filterMap]
  exact (findSomeM?_eq_ok (fun _ _ => ofEntryWithKey_eq_ok) h).symm

theorem mem_valuesOf : value ∈ valuesOf fromBytes policy key before ↔
    ∃ utxo ∈ before, mapEntry fromBytes policy utxo = some ⟨key, value⟩ := by
  simp only [valuesOf, List.mem_filterMap, Option.map_eq_some_iff, Option.filter_eq_some_iff,
    decide_eq_true_eq]
  constructor
  · rintro ⟨utxo, hutxo, datum, ⟨hdatum, rfl⟩, rfl⟩
    exact ⟨utxo, hutxo, hdatum⟩
  · rintro ⟨utxo, hutxo, hdatum⟩
    exact ⟨utxo, hutxo, _, ⟨hdatum, rfl⟩, rfl⟩

theorem eachCarries_iff : EachCarries fromBytes policy key value before ↔
    ∀ found ∈ valuesOf fromBytes policy key before, found = value := by
  simp only [mem_valuesOf]
  constructor
  · rintro h found ⟨utxo, hutxo, hdatum⟩
    exact h utxo hutxo _ hdatum rfl
  · rintro h utxo hutxo datum hdatum rfl
    exact h _ ⟨utxo, hutxo, hdatum⟩

theorem length_valuesOf : (valuesOf fromBytes policy key before).length =
    (before.filter (hasKey fromBytes policy key)).length := by
  rw [valuesOf, List.length_filterMap_eq_countP, ← List.countP_eq_length_filter]
  refine List.countP_congr fun utxo _ => ?_
  cases hdatum : mapEntry fromBytes policy utxo with
  | none => simp [hasKey, hdatum]
  | some datum => by_cases hkey : datum.key = key <;> simp [hasKey, hdatum, hkey, Option.filter]

theorem holdsToken_of_mapEntry {datum : GovernedMapDatum}
    (h : mapEntry fromBytes policy utxo = some datum) : holdsToken policy utxo = true := by
  cases hholds : holdsToken policy utxo with
  | true => rfl
  | false =>
      rw [holdsToken, Option.isSome_eq_false_iff] at hholds
      simp [mapEntry, ogmiosUtxoToGovernedMapUtxo, hholds] at h

end Decoding

/-! ## What an operation submits -/

section Submission

variable {client : Client} {wallets : TemporaryWallets} {orders : IterationOrders}
  {ctx : TransactionContext} {governance : Except BuildError GovernanceData}
  {makeTx : GovernanceData → Costs → TransactionContext → Except BuildError BalancedTransaction}
  {txName : String} {governanceData : GovernanceData} {result : MultiSigSmartContractResult}
  {tx : BalancedTransaction}

/-- The transaction of a temporary wallet has its change paid to the payment key. -/
theorem exists_made_of_toSign {data : MultiSigTransactionData}
    {makeTx : Costs → TransactionContext → Except BuildError BalancedTransaction}
    (h : submitOrCreateTxToSign client wallets orders governanceData ctx makeTx txName =
      .ok (.transactionToSign data)) :
    ∃ wallet walletCtx costs, wallets.forPaymentKey wallet = .ok walletCtx ∧
      makeTx costs { walletCtx with changeAddress := ctx.changeAddress } = .ok data.tx := by
  unfold submitOrCreateTxToSign at h
  split_ifs at h
  · obtain ⟨txHash, -, h⟩ := bind_eq_ok_iff.mp h
    simp at h
  · obtain ⟨data', hdata, h⟩ := bind_eq_ok_iff.mp h
    obtain rfl : data' = data := by simpa using h
    obtain ⟨wallet, -, hdata⟩ := bind_eq_ok_iff.mp hdata
    obtain ⟨walletCtx, hwallet, hdata⟩ := bind_eq_ok_iff.mp hdata
    obtain ⟨tx, htx, hdata⟩ := bind_eq_ok_iff.mp hdata
    obtain ⟨_, costs, -, -, hmade⟩ :=
      Costs.calculateCosts_eq_ok_iff.mp (mapError_eq_ok_iff.mp htx)
    cases hdata
    exact ⟨wallet, walletCtx, costs, mapError_eq_ok_iff.mp hwallet, hmade⟩

theorem submitted_of_governedTx {result? : Option MultiSigSmartContractResult}
    (h : (governedTx client wallets orders ctx governance txName makeTx >>= awaitResult client) =
      .ok result?) :
    ∃ governanceData result, governance = .ok governanceData ∧ result? = some result ∧
      submitOrCreateTxToSign client wallets orders governanceData ctx (makeTx governanceData)
        txName = .ok result := by
  obtain ⟨made, hmade, h⟩ := bind_eq_ok_iff.mp h
  obtain ⟨governanceData, hgovernance, hmade⟩ := bind_eq_ok_iff.mp hmade
  obtain ⟨result, hresult, hmade⟩ := bind_eq_ok_iff.mp hmade
  cases hmade
  refine ⟨governanceData, result, hgovernance, ?_, hresult⟩
  cases result with
  | transactionSubmitted txHash =>
      obtain ⟨_, -, h⟩ := bind_eq_ok_iff.mp h
      exact (Except.ok.inj h).symm
  | transactionToSign data => exact (Except.ok.inj h).symm

/-- The transaction is made for the payment key or for a temporary wallet. -/
theorem exists_made {fromBytes : ByteString → Option PlutusData} {toBytes : PlutusData → ByteString}
    {nativeScriptHash : NativeScript → ScriptHash} {validator policy : PlutusScript} {key : String}
    {value : ByteString} {before : List OgmiosUtxo}
    (hassumed : Assumed fromBytes toBytes nativeScriptHash validator policy wallets ctx governance
      key value before)
    (h : submitOrCreateTxToSign client wallets orders governanceData ctx (makeTx governanceData)
      txName = .ok result)
    (hcarries : Carries client orders ctx makeTx governanceData result tx) :
    ∃ costs ctx', makeTx governanceData costs ctx' = .ok tx ∧ Apart ctx' before ∧
      ctx'.changeAddress ≠ validator.address := by
  cases result with
  | transactionSubmitted txHash =>
      obtain ⟨_, costs, -, -, hmade⟩ := Costs.calculateCosts_eq_ok_iff.mp hcarries.1
      exact ⟨costs, ctx, hmade, hassumed.payment, hassumed.change⟩
  | transactionToSign data =>
      obtain ⟨wallet, walletCtx, costs, hwallet, hmade⟩ := exists_made_of_toSign h
      obtain rfl : data.tx = tx := hcarries
      exact ⟨costs, _, hmade, hassumed.wallet wallet walletCtx hwallet, hassumed.change⟩

end Submission

/-! ## Transactions -/

/-- What a transaction does to the outputs at the validator and to the supply of tokens. -/
structure Replaces (validator policy : PlutusScript) (ctx : TransactionContext)
    (tx : BalancedTransaction) (spent : List OgmiosUtxo) (outputs : List TransactionOutput)
    (supplyChange : ℤ) : Prop where
  spends : ∀ utxo ∈ spent, utxo.utxoId ∈ tx.inputs
  inputs : ∀ id ∈ tx.inputs, id ∈ spent.map (·.utxoId) ∨ id ∈ ctx.paymentKeyUtxos.map (·.utxoId)
  outputs : (tx.outputs.filter fun output => output.address = validator.address) = outputs
  minted : minted policy.scriptHash tx = supplyChange

theorem replaces_of_builtFrom {builder : TransactionBuilder} {ctx : TransactionContext}
    {tx : BalancedTransaction} {added : List OgmiosUtxo} {change : List TransactionOutput}
    {validator policy : PlutusScript} {spent : List OgmiosUtxo} {supplyChange : ℤ}
    (h : BuiltFrom builder ctx tx added change) (hregular : builder.regularInputs = [])
    (hspent : builder.scriptIds = spent.map (·.utxoId))
    (houtputs : ∀ output ∈ builder.outputs, output.address = validator.address)
    (hchange : ctx.changeAddress ≠ validator.address)
    (hmint : ((builder.mint.filter fun minting => minting.policy = policy.scriptHash).map
      (·.amount)).sum = supplyChange) :
    Replaces validator policy ctx tx spent builder.outputs supplyChange := by
  have hinputs (id : UtxoId) : id ∈ tx.inputs ↔
      id ∈ spent.map (·.utxoId) ∨ id ∈ added.map (·.utxoId) := by
    rw [h.tx_eq, builder.mem_build_inputs, hregular, hspent]
    simp
  refine ⟨fun utxo hutxo => ?_, fun id hid => ?_, ?_, ?_⟩
  · exact (hinputs _).mpr (.inl (List.mem_map_of_mem hutxo))
  · exact ((hinputs id).mp hid).imp_right fun hadded =>
      List.map_subset _ h.added_subset hadded
  · have hnone : (change.filter fun output => output.address = validator.address) = [] := by
      refine List.filter_eq_nil_iff.mpr fun output houtput => ?_
      rw [h.change_address output houtput]
      simpa using hchange
    rw [h.tx_eq]
    change ((builder.outputs ++ change).filter _) = _
    rw [List.filter_append, hnone, List.append_nil, List.filter_eq_self]
    simpa using houtputs
  · rw [h.tx_eq, ← hmint]
    exact (((List.perm_insertionSort _ builder.mint).filter _).map _).sum_eq

section Transactions

variable {lib : SerializationLib} {nativeScriptHash : NativeScript → ScriptHash}
  {validator policy : PlutusScript} {key : String} {value : ByteString}
  {utxosForKey : List OgmiosUtxo} {governanceData : GovernanceData} {costs : Costs}
  {ctx : TransactionContext} {tx : BalancedTransaction}
  (hgovernance : ∀ minting, addMintOneScriptTokenUsingReferenceScript nativeScriptHash
    governanceData.policy.script costs = .ok minting → minting.policy ≠ policy.scriptHash)
  (hchange : ctx.changeAddress ≠ validator.address)

include hgovernance hchange

theorem insertKeyValueTx_replaces
    (h : insertKeyValueTx lib nativeScriptHash validator policy key value governanceData costs ctx =
      .ok tx) :
    Replaces validator policy ctx tx []
      [outputWithOneScriptToken validator policy (GovernedMapDatum.toPlutusData ⟨key, value⟩)]
      1 := by
  obtain ⟨units, -, h⟩ := bind_eq_ok_iff.mp h
  obtain ⟨minting, hminting, h⟩ := bind_eq_ok_iff.mp h
  obtain ⟨added, change, hbuilt⟩ := exists_builtFrom h
  refine replaces_of_builtFrom hbuilt rfl rfl ?_ hchange ?_
  · simp [outputWithOneScriptToken]
  · simp [hgovernance minting hminting, addMintOneScriptToken, addMintScriptTokens]

theorem updateKeyValueTx_replaces
    (h : updateKeyValueTx lib nativeScriptHash validator policy key value utxosForKey governanceData
      costs ctx = .ok tx) :
    Replaces validator policy ctx tx utxosForKey
      [outputWithOneScriptToken validator policy (GovernedMapDatum.toPlutusData ⟨key, value⟩)]
      (if utxosForKey.length > 1 then burnAmount 1 utxosForKey else 0) := by
  obtain ⟨minting, hminting, h⟩ := bind_eq_ok_iff.mp h
  obtain ⟨inputs, hinputs, h⟩ := bind_eq_ok_iff.mp h
  obtain ⟨burn, hburn, h⟩ := bind_eq_ok_iff.mp h
  obtain ⟨added, change, hbuilt⟩ := exists_builtFrom h
  refine replaces_of_builtFrom hbuilt rfl (ids_of_keyInputs hinputs) ?_ hchange ?_
  · simp [outputWithOneScriptToken]
  · unfold burnOthers at hburn
    split_ifs at hburn ⊢
    · obtain ⟨units, -, hburn⟩ := bind_eq_ok_iff.mp hburn
      cases hburn
      simp [hgovernance minting hminting, addMintScriptTokens]
    · cases hburn
      simp [hgovernance minting hminting]

theorem removeKeyValueTx_replaces
    (h : removeKeyValueTx lib nativeScriptHash validator policy utxosForKey governanceData costs
      ctx = .ok tx) :
    Replaces validator policy ctx tx utxosForKey [] (burnAmount 0 utxosForKey) := by
  obtain ⟨minting, hminting, h⟩ := bind_eq_ok_iff.mp h
  obtain ⟨inputs, hinputs, h⟩ := bind_eq_ok_iff.mp h
  obtain ⟨units, -, h⟩ := bind_eq_ok_iff.mp h
  obtain ⟨added, change, hbuilt⟩ := exists_builtFrom h
  refine replaces_of_builtFrom hbuilt rfl (ids_of_keyInputs hinputs) ?_ hchange ?_
  · simp
  · simp [hgovernance minting hminting, addMintScriptTokens]

end Transactions

/-- Exactly the spent outputs are gone from the validator. -/
theorem Replaces.exists_created {validator policy : PlutusScript} {ctx : TransactionContext}
    {tx : BalancedTransaction} {outputs : List TransactionOutput} {supplyChange : ℤ}
    {toBytes : PlutusData → ByteString} {before after : List OgmiosUtxo} {p : OgmiosUtxo → Bool}
    (h : Replaces validator policy ctx tx (before.filter p) outputs supplyChange)
    (hunique : (before.map (·.utxoId)).Nodup) (hapart : Apart ctx before)
    (happlied : Applied toBytes validator.address tx before after) :
    ∃ created, List.Forall₂ (Created toBytes) outputs created ∧
      after = (before.filter fun utxo => !p utxo) ++ created := by
  obtain ⟨created, hcreated, rfl⟩ := happlied
  rw [h.outputs] at hcreated
  refine ⟨created, hcreated, congrArg (· ++ created) (List.filter_congr fun utxo hutxo => ?_)⟩
  have hspent : utxo.utxoId ∈ tx.inputs ↔ p utxo = true := by
    constructor
    · intro hmem
      rcases h.inputs _ hmem with hspent | hpayment
      · obtain ⟨other, hother, hid⟩ := List.mem_map.mp hspent
        rw [List.mem_filter] at hother
        rw [← List.inj_on_of_nodup_map hunique hother.1 hutxo hid]
        exact hother.2
      · obtain ⟨payment, hmem, hid⟩ := List.mem_map.mp hpayment
        exact absurd hid (hapart payment hmem utxo hutxo)
    · exact fun hp => h.spends utxo (List.mem_filter.mpr ⟨hutxo, hp⟩)
  cases hp : p utxo <;> simp [hspent, hp]

/-! ## Burned amounts -/

theorem burnAmount_eq (kept : Int32) (utxos : List OgmiosUtxo) :
    burnAmount kept utxos = (kept.toInt - utxos.length).bmod (2 ^ 32) := by
  have hsize : Int32.size = 2 ^ 32 := rfl
  rw [burnAmount, Int32.toInt_neg, Int32.toInt_sub, Int32.toInt_ofNat', hsize, Int.bmod_neg_bmod,
    neg_sub, Int.sub_bmod_bmod]

theorem bmod_eq_self_iff (x : ℤ) : x.bmod (2 ^ 32) = x ↔ -2 ^ 31 ≤ x ∧ x < 2 ^ 31 := by
  rw [Int.bmod_def]
  split_ifs <;> omega

theorem length_add_burnAmount_iff (utxos : List OgmiosUtxo) :
    utxos.length + burnAmount 0 utxos = 0 ↔ utxos.length ≤ 2 ^ 31 := by
  have hself := bmod_eq_self_iff (0 - utxos.length)
  rw [burnAmount_eq, Int32.toInt_zero]
  omega

theorem length_add_burnOthers_iff {utxos : List OgmiosUtxo} (h : 0 < utxos.length) :
    utxos.length + (if utxos.length > 1 then burnAmount 1 utxos else 0) = 1 ↔
      utxos.length ≤ 2 ^ 31 + 1 := by
  have hself := bmod_eq_self_iff (1 - utxos.length)
  rw [burnAmount_eq, Int32.toInt_one]
  split_ifs <;> omega

/-! ## Accounting -/

section Accounting

variable {fromBytes : ByteString → Option PlutusData} {policy : PolicyId} {key : String}
  {utxos before after created : List OgmiosUtxo} {supplyChange : ℤ}

def OneToken (policy : PolicyId) (utxos : List OgmiosUtxo) : Prop :=
  ∀ utxo ∈ utxos, holdsToken policy utxo → utxo.getAssetAmount (emptyNameAsset policy) = 1

theorem tokenCount_append (left right : List OgmiosUtxo) :
    tokenCount policy (left ++ right) = tokenCount policy left + tokenCount policy right := by
  simp [tokenCount]

theorem tokenCount_perm (policy : PolicyId) {left right : List OgmiosUtxo} (h : left.Perm right) :
    tokenCount policy left = tokenCount policy right :=
  (h.map _).sum_eq

theorem tokenCount_eq (fromBytes : ByteString → Option PlutusData) (h : OneToken policy utxos) :
    tokenCount policy utxos =
      entryCount fromBytes policy utxos + strayCount fromBytes policy utxos := by
  induction utxos with
  | nil => rfl
  | cons utxo utxos ih =>
      have hrest := ih fun other hother => h other (List.mem_cons_of_mem _ hother)
      have hhead := h utxo List.mem_cons_self
      have hsplit : (utxo.getAssetAmount (emptyNameAsset policy)).toNat =
          (if (mapEntry fromBytes policy utxo).isSome then 1 else 0) +
            if holdsToken policy utxo && (mapEntry fromBytes policy utxo).isNone then 1 else 0 := by
        cases hdatum : mapEntry fromBytes policy utxo with
        | some datum => simp [hhead (holdsToken_of_mapEntry hdatum)]
        | none =>
            cases hholds : holdsToken policy utxo with
            | true => simp [hhead hholds]
            | false =>
                rw [holdsToken, Option.isSome_eq_false_iff, Option.isNone_iff_eq_none] at hholds
                simp [OgmiosUtxo.getAssetAmount, MultiAsset.getAsset, emptyNameAsset, hholds]
      simp only [tokenCount, entryCount, strayCount, List.map_cons, List.sum_cons,
        List.countP_cons] at hrest ⊢
      omega

theorem OneToken.filter (h : OneToken policy utxos) (p : OgmiosUtxo → Bool) :
    OneToken policy (utxos.filter p) :=
  fun utxo hutxo => h utxo (List.mem_of_mem_filter hutxo)

/-- Entries with the key are no stray outputs, and each has a token. -/
theorem tokenCount_hasKey (h : OneToken policy utxos)
    (hkey : ∀ utxo ∈ utxos, hasKey fromBytes policy key utxo = true) :
    tokenCount policy utxos = utxos.length ∧ entryCount fromBytes policy utxos = utxos.length ∧
      strayCount fromBytes policy utxos = 0 := by
  have hentry (utxo : OgmiosUtxo) (hutxo : utxo ∈ utxos) :
      (mapEntry fromBytes policy utxo).isSome := by
    obtain ⟨datum, hdatum, -⟩ := hasKey_eq_true_iff.mp (hkey utxo hutxo)
    simp [hdatum]
  have hentries : entryCount fromBytes policy utxos = utxos.length :=
    List.countP_eq_length.mpr hentry
  have hstrays : strayCount fromBytes policy utxos = 0 := by
    refine List.countP_eq_zero.mpr fun utxo hutxo => ?_
    simp [Option.isSome_iff_ne_none.mp (hentry utxo hutxo)]
  exact ⟨by rw [tokenCount_eq fromBytes h, hentries, hstrays, Nat.add_zero], hentries, hstrays⟩

theorem othersKept_skipped (h : OneToken policy before) :
    OthersKept fromBytes policy key before before 0 :=
  ⟨rfl, tokenCount_eq fromBytes h, by simp⟩

/-- When all entries with the key are replaced, the tokens add up exactly when the supply changes
by the difference. -/
theorem othersKept_iff (hbefore : OneToken policy before) (hcreated : OneToken policy created)
    (hkey : ∀ utxo ∈ created, hasKey fromBytes policy key utxo = true) :
    OthersKept fromBytes policy key before
        ((before.filter fun utxo => !hasKey fromBytes policy key utxo) ++ created) supplyChange ↔
      (before.filter (hasKey fromBytes policy key)).length + supplyChange = created.length := by
  have hsplit := List.filter_append_perm (hasKey fromBytes policy key) before
  have hspentKey : ∀ utxo ∈ before.filter (hasKey fromBytes policy key),
      hasKey fromBytes policy key utxo = true := fun utxo hutxo => List.of_mem_filter hutxo
  obtain ⟨hspentTokens, -, hspentStrays⟩ := tokenCount_hasKey (hbefore.filter _) hspentKey
  obtain ⟨hcreatedTokens, hcreatedEntries, -⟩ := tokenCount_hasKey hcreated hkey
  have hkeptTokens := tokenCount_eq fromBytes
    (hbefore.filter fun utxo => !hasKey fromBytes policy key utxo)
  have hothers : (created.filter fun utxo => !hasKey fromBytes policy key utxo) = [] := by
    simpa using hkey
  have htokens := tokenCount_perm policy hsplit
  rw [tokenCount_append, hspentTokens] at htokens
  have hstrays : strayCount fromBytes policy (_ ++ _) = strayCount fromBytes policy before :=
    hsplit.countP_eq _
  rw [strayCount, List.countP_append, ← strayCount, ← strayCount, hspentStrays,
    Nat.zero_add] at hstrays
  constructor
  · intro h
    have hsupply := h.supply
    rw [tokenCount_append, ← htokens, hcreatedTokens] at hsupply
    push_cast at hsupply
    linarith
  · intro h
    refine ⟨?_, ?_, ?_⟩
    · rw [List.filter_append, hothers, List.append_nil, List.filter_filter]
      simp
    · rw [tokenCount_append, hcreatedTokens, hkeptTokens, hstrays, entryCount, entryCount,
        List.countP_append, ← entryCount, ← entryCount, hcreatedEntries]
      omega
    · rw [tokenCount_append, ← htokens, hcreatedTokens]
      push_cast
      linarith

end Accounting

/-! ## Created entries -/

section Created

variable {fromBytes : ByteString → Option PlutusData} {toBytes : PlutusData → ByteString}
  {validator policy : PlutusScript} {key : String} {value : ByteString} {utxo : OgmiosUtxo}
  {before : List OgmiosUtxo}
  (hdatum : fromBytes (toBytes (GovernedMapDatum.toPlutusData ⟨key, value⟩)) =
    some (GovernedMapDatum.toPlutusData ⟨key, value⟩))
  (hcreated : Created toBytes (outputWithOneScriptToken validator policy
    (GovernedMapDatum.toPlutusData ⟨key, value⟩)) utxo)

include hcreated in
theorem Created.getAssetAmount_eq_one :
    utxo.getAssetAmount (emptyNameAsset policy.scriptHash) = 1 := by
  rw [OgmiosUtxo.getAssetAmount, hcreated.nativeTokens]
  change MultiAsset.getAsset (MultiAsset.withAssetAmount ∅ _ 1) _ _ = 1
  rw [MultiAsset.getAsset_withAssetAmount, if_pos ⟨rfl, rfl⟩]

include hdatum hcreated in
theorem Created.mapEntry_eq :
    mapEntry fromBytes policy.scriptHash utxo = some ⟨key, value⟩ := by
  have hholds : utxo.value.nativeTokens.lookup policy.scriptHash ≠ none := by
    intro hnone
    have hone := hcreated.getAssetAmount_eq_one
    simp [OgmiosUtxo.getAssetAmount, MultiAsset.getAsset, emptyNameAsset, hnone] at hone
  have hdata : utxo.getPlutusData fromBytes =
      some (GovernedMapDatum.toPlutusData ⟨key, value⟩) := by
    rw [OgmiosUtxo.getPlutusData, hcreated.datum]
    exact hdatum
  simp [mapEntry, ogmiosUtxoToGovernedMapUtxo, hholds, hdata, tryFrom_toPlutusData]

include hdatum hcreated in
/-- The new entry is the only one with the key. -/
theorem Created.isSet :
    IsSet fromBytes policy.scriptHash key value
      ((before.filter fun utxo => !hasKey fromBytes policy.scriptHash key utxo) ++ [utxo]) := by
  have hentry := hcreated.mapEntry_eq hdatum
  refine ⟨⟨utxo, by simp, hentry⟩, fun other hother datum hother' hkey => ?_⟩
  rcases List.mem_append.mp hother with hkept | hnew
  · have hnokey := List.of_mem_filter hkept
    rw [hasKey_eq_true_iff.mpr ⟨datum, hother', hkey⟩] at hnokey
    simp at hnokey
  · rw [List.mem_singleton.mp hnew, hentry, Option.mem_some_iff] at hother'
    rw [← hother']

include hdatum hcreated in
theorem Created.othersKept_iff {supplyChange : ℤ} (hbefore : OneToken policy.scriptHash before) :
    OthersKept fromBytes policy.scriptHash key before
        ((before.filter fun utxo => !hasKey fromBytes policy.scriptHash key utxo) ++ [utxo])
        supplyChange ↔
      (before.filter (hasKey fromBytes policy.scriptHash key)).length + supplyChange = 1 := by
  refine MapOutputs.othersKept_iff hbefore ?_ ?_
  · intro other hother _
    rw [List.mem_singleton.mp hother]
    exact hcreated.getAssetAmount_eq_one
  · intro other hother
    rw [List.mem_singleton.mp hother]
    exact hasKey_eq_true_iff.mpr ⟨_, hcreated.mapEntry_eq hdatum, rfl⟩

end Created

/-! ## Operations -/

section Operations

variable {lib : SerializationLib} {nativeScriptHash : NativeScript → ScriptHash}
  {validator policy : PlutusScript} {client : Client} {wallets : TemporaryWallets}
  {orders : IterationOrders} {fromBytes : ByteString → Option PlutusData}
  {toBytes : PlutusData → ByteString} {ctx : TransactionContext}
  {governance : Except BuildError GovernanceData} {key : String} {value : ByteString}
  {before after utxosForKey : List OgmiosUtxo} {supplyChange : ℤ}
  {result : Option MultiSigSmartContractResult}
  (h : Assumed fromBytes toBytes nativeScriptHash validator policy wallets ctx governance key value
    before)

include h

/-- Nothing is done when the first entry with the key has the value. -/
theorem isSet_skipped_iff
    (hhead : (valuesOf fromBytes policy.scriptHash key before).head? = some value) :
    (IsSet fromBytes policy.scriptHash key value before ∧
        OthersKept fromBytes policy.scriptHash key before before 0) ↔
      ∀ found ∈ valuesOf fromBytes policy.scriptHash key before, found = value := by
  rw [← eachCarries_iff]
  constructor
  · exact fun hset => hset.1.2
  · exact fun hcarries => ⟨⟨mem_valuesOf.mp (List.mem_of_mem_head? hhead), hcarries⟩,
      othersKept_skipped h.oneToken⟩

/-- An operation that makes a transaction replaces the entries with the key by the outputs of the
transaction. -/
theorem exists_replacement {txName : String} {spent : List OgmiosUtxo}
    {outputs : List TransactionOutput} {minted : ℤ}
    {makeTx : GovernanceData → Costs → TransactionContext → Except BuildError BalancedTransaction}
    (hrun : (governedTx client wallets orders ctx governance txName makeTx >>= awaitResult client) =
      .ok result)
    (houtcome : Outcome client orders ctx governance toBytes validator policy makeTx before result
      after supplyChange)
    (hspent : spent = before.filter (hasKey fromBytes policy.scriptHash key))
    (hreplaces : ∀ governanceData costs ctx' tx, governance = .ok governanceData →
      ctx'.changeAddress ≠ validator.address → makeTx governanceData costs ctx' = .ok tx →
      Replaces validator policy ctx' tx spent outputs minted) :
    result.isSome ∧ supplyChange = minted ∧
      ∃ created, List.Forall₂ (Created toBytes) outputs created ∧
        after = (before.filter fun utxo => !hasKey fromBytes policy.scriptHash key utxo) ++
          created := by
  obtain ⟨governanceData, submitted, hgovernance, rfl, hsubmitted⟩ := submitted_of_governedTx hrun
  cases houtcome with
  | applied governanceData' _ tx _ hgovernance' hcarries happlied =>
      obtain rfl := Except.ok.inj (hgovernance.symm.trans hgovernance')
      obtain ⟨costs, ctx', hmade, hapart, hchange⟩ := exists_made h hsubmitted hcarries
      have hreplaced := hreplaces governanceData costs ctx' tx hgovernance hchange hmade
      subst hspent
      exact ⟨rfl, hreplaced.minted, hreplaced.exists_created h.unique hapart happlied⟩

/-- With one output for the key, the entry is set. -/
theorem isSet_replaced_iff {minted : ℤ} {created : List OgmiosUtxo}
    (hcreated : List.Forall₂ (Created toBytes)
      [outputWithOneScriptToken validator policy (GovernedMapDatum.toPlutusData ⟨key, value⟩)]
      created) :
    (IsSet fromBytes policy.scriptHash key value
        ((before.filter fun utxo => !hasKey fromBytes policy.scriptHash key utxo) ++ created) ∧
      OthersKept fromBytes policy.scriptHash key before
        ((before.filter fun utxo => !hasKey fromBytes policy.scriptHash key utxo) ++ created)
        minted) ↔
      (before.filter (hasKey fromBytes policy.scriptHash key)).length + minted = 1 := by
  obtain ⟨utxo, rest, hutxo, hrest, rfl⟩ := List.forall₂_cons_left_iff.mp hcreated
  obtain rfl := List.forall₂_nil_left_iff.mp hrest
  rw [hutxo.othersKept_iff h.datum h.oneToken]
  exact and_iff_right (hutxo.isSet h.datum)

theorem runInsert_effect_iff
    (hrun : runInsert lib nativeScriptHash validator policy client wallets orders fromBytes ctx
      governance key value before = .ok result)
    (houtcome : Outcome client orders ctx governance toBytes validator policy
      (insertKeyValueTx lib nativeScriptHash validator policy key value) before result after
      supplyChange) :
    (IsSet fromBytes policy.scriptHash key value after ∧
        OthersKept fromBytes policy.scriptHash key before after supplyChange) ↔
      ((valuesOf fromBytes policy.scriptHash key before).head? = some value →
        ∀ found ∈ valuesOf fromBytes policy.scriptHash key before, found = value) := by
  obtain ⟨current, hcurrent, hrun⟩ := bind_eq_ok_iff.mp hrun
  have hhead := head?_valuesOf (mapError_eq_ok_iff.mp hcurrent)
  cases current with
  | some currentValue =>
      simp only at hrun
      split_ifs at hrun with hne
      obtain rfl : none = result := Except.ok.inj hrun
      obtain rfl : currentValue = value := not_not.mp hne
      cases houtcome
      rw [forall_prop_of_true hhead, isSet_skipped_iff h hhead]
  | none =>
      have hnone : [] = before.filter (hasKey fromBytes policy.scriptHash key) := by
        rw [eq_comm, ← List.length_eq_zero_iff, ← length_valuesOf, List.head?_eq_none_iff.mp hhead]
        rfl
      obtain ⟨hsome, rfl, created, hcreated, rfl⟩ := exists_replacement h hrun houtcome hnone
        fun governanceData costs _ _ hgovernance hchange hmade => insertKeyValueTx_replaces
          (h.governance governanceData costs · hgovernance) hchange hmade
      rw [isSet_replaced_iff h hcreated, ← hnone]
      exact iff_of_true (by simp) fun hvalue => by simp [hhead] at hvalue

theorem runUpdate_effect_iff {expectedCurrentValue : Option ByteString}
    (hutxos : getUtxosForKey fromBytes before key policy.scriptHash = .ok utxosForKey)
    (hrun : runUpdate lib nativeScriptHash validator policy client wallets orders fromBytes ctx
      governance key value expectedCurrentValue before = .ok result)
    (houtcome : Outcome client orders ctx governance toBytes validator policy
      (updateKeyValueTx lib nativeScriptHash validator policy key value utxosForKey) before result
      after supplyChange) :
    (IsSet fromBytes policy.scriptHash key value after ∧
        OthersKept fromBytes policy.scriptHash key before after supplyChange) ↔
      ((valuesOf fromBytes policy.scriptHash key before).head? = some value →
        ∀ found ∈ valuesOf fromBytes policy.scriptHash key before, found = value) ∧
      ((valuesOf fromBytes policy.scriptHash key before).head? ≠ some value →
        (valuesOf fromBytes policy.scriptHash key before).length ≤ 2 ^ 31 + 1) := by
  obtain ⟨utxos, hutxos', hrun⟩ := bind_eq_ok_iff.mp hrun
  obtain rfl := Except.ok.inj (hutxos.symm.trans (mapError_eq_ok_iff.mp hutxos'))
  obtain ⟨current, hcurrent, hrun⟩ := bind_eq_ok_iff.mp hrun
  have hhead := head?_valuesOf (mapError_eq_ok_iff.mp hcurrent)
  cases current with
  | none => simp at hrun
  | some currentValue =>
      simp only at hrun
      split_ifs at hrun with hexpected hne
      · have hspent := getUtxosForKey_eq_ok hutxos
        obtain ⟨hsome, rfl, created, hcreated, rfl⟩ := exists_replacement h hrun houtcome hspent
          fun governanceData costs _ _ hgovernance hchange hmade => updateKeyValueTx_replaces
            (h.governance governanceData costs · hgovernance) hchange hmade
        have hpos : 0 < utxosForKey.length := by
          rw [hspent, ← length_valuesOf]
          exact List.length_pos_of_mem (List.mem_of_mem_head? hhead)
        have hother : (valuesOf fromBytes policy.scriptHash key before).head? ≠ some value := by
          simpa [hhead] using hne
        rw [isSet_replaced_iff h hcreated, ← hspent, length_add_burnOthers_iff hpos, hspent,
          ← length_valuesOf, forall_prop_of_true hother]
        exact (and_iff_right fun hvalue => absurd hvalue hother).symm
      · obtain rfl : none = result := Except.ok.inj hrun
        obtain rfl : currentValue = value := not_not.mp hne
        cases houtcome
        rw [isSet_skipped_iff h hhead, forall_prop_of_true hhead]
        exact (and_iff_left fun hother => absurd hhead hother).symm

theorem runRemove_effect_iff
    (hutxos : getUtxosForKey fromBytes before key policy.scriptHash = .ok utxosForKey)
    (hrun : runRemove lib nativeScriptHash validator policy client wallets orders fromBytes ctx
      governance key before = .ok result)
    (houtcome : Outcome client orders ctx governance toBytes validator policy
      (removeKeyValueTx lib nativeScriptHash validator policy utxosForKey) before result after
      supplyChange) :
    (IsUnset fromBytes policy.scriptHash key after ∧
        OthersKept fromBytes policy.scriptHash key before after supplyChange) ↔
      (valuesOf fromBytes policy.scriptHash key before).length ≤ 2 ^ 31 := by
  obtain ⟨utxos, hutxos', hrun⟩ := bind_eq_ok_iff.mp hrun
  obtain rfl := Except.ok.inj (hutxos.symm.trans (mapError_eq_ok_iff.mp hutxos'))
  obtain rfl := getUtxosForKey_eq_ok hutxos
  split_ifs at hrun with hempty
  · obtain rfl : none = result := Except.ok.inj hrun
    cases houtcome
    have hunset : IsUnset fromBytes policy.scriptHash key before := by
      rw [isUnset_iff]
      simpa using List.length_eq_zero_iff.mp hempty
    rw [length_valuesOf, hempty]
    exact iff_of_true ⟨hunset, othersKept_skipped h.oneToken⟩ (Nat.zero_le _)
  · obtain ⟨hsome, rfl, created, hcreated, rfl⟩ := exists_replacement h hrun houtcome rfl
      fun governanceData costs _ _ hgovernance hchange hmade => removeKeyValueTx_replaces
        (h.governance governanceData costs · hgovernance) hchange hmade
    obtain rfl := List.forall₂_nil_left_iff.mp hcreated
    have hunset : IsUnset fromBytes policy.scriptHash key
        (before.filter fun utxo => !hasKey fromBytes policy.scriptHash key utxo) := by
      rw [isUnset_iff]
      exact fun utxo hutxo => by simpa using List.of_mem_filter hutxo
    rw [othersKept_iff h.oneToken (by simp [OneToken]) (by simp), List.length_nil, Nat.cast_zero,
      length_add_burnAmount_iff, List.append_nil, length_valuesOf]
    exact and_iff_right hunset

end Operations

/-- An operation has its effect exactly when the first entry with the key lacks the value or all of
them have it, and there are no more entries than a number of 32 bits can burn. -/
theorem map_operations_effect_iff (lib : SerializationLib)
    {nativeScriptHash : NativeScript → ScriptHash} {validator policy : PlutusScript}
    (client : Client) {wallets : TemporaryWallets} (orders : IterationOrders)
    {fromBytes : ByteString → Option PlutusData} {toBytes : PlutusData → ByteString}
    {ctx : TransactionContext} {governance : Except BuildError GovernanceData} {key : String}
    {value : ByteString} {before : List OgmiosUtxo}
    (h : Assumed fromBytes toBytes nativeScriptHash validator policy wallets ctx governance key
      value before) :
    (∀ result after supplyChange,
      runInsert lib nativeScriptHash validator policy client wallets orders fromBytes ctx governance
        key value before = .ok result →
      Outcome client orders ctx governance toBytes validator policy
        (insertKeyValueTx lib nativeScriptHash validator policy key value) before result after
        supplyChange →
      ((IsSet fromBytes policy.scriptHash key value after ∧
          OthersKept fromBytes policy.scriptHash key before after supplyChange) ↔
        ((valuesOf fromBytes policy.scriptHash key before).head? = some value →
          ∀ found ∈ valuesOf fromBytes policy.scriptHash key before, found = value))) ∧
    (∀ expectedCurrentValue utxosForKey result after supplyChange,
      getUtxosForKey fromBytes before key policy.scriptHash = .ok utxosForKey →
      runUpdate lib nativeScriptHash validator policy client wallets orders fromBytes ctx governance
        key value expectedCurrentValue before = .ok result →
      Outcome client orders ctx governance toBytes validator policy
        (updateKeyValueTx lib nativeScriptHash validator policy key value utxosForKey) before result
        after supplyChange →
      ((IsSet fromBytes policy.scriptHash key value after ∧
          OthersKept fromBytes policy.scriptHash key before after supplyChange) ↔
        ((valuesOf fromBytes policy.scriptHash key before).head? = some value →
          ∀ found ∈ valuesOf fromBytes policy.scriptHash key before, found = value) ∧
        ((valuesOf fromBytes policy.scriptHash key before).head? ≠ some value →
          (valuesOf fromBytes policy.scriptHash key before).length ≤ 2 ^ 31 + 1))) ∧
    (∀ utxosForKey result after supplyChange,
      getUtxosForKey fromBytes before key policy.scriptHash = .ok utxosForKey →
      runRemove lib nativeScriptHash validator policy client wallets orders fromBytes ctx governance
        key before = .ok result →
      Outcome client orders ctx governance toBytes validator policy
        (removeKeyValueTx lib nativeScriptHash validator policy utxosForKey) before result after
        supplyChange →
      ((IsUnset fromBytes policy.scriptHash key after ∧
          OthersKept fromBytes policy.scriptHash key before after supplyChange) ↔
        (valuesOf fromBytes policy.scriptHash key before).length ≤ 2 ^ 31)) :=
  ⟨fun _ _ _ hrun houtcome => runInsert_effect_iff h hrun houtcome,
    fun _ _ _ _ _ hutxos hrun houtcome => runUpdate_effect_iff h hutxos hrun houtcome,
    fun _ _ _ _ hutxos hrun houtcome => runRemove_effect_iff h hutxos hrun houtcome⟩

/-! ## Two entries with one key and different values -/

/-- The bytes of a datum are its value, and the key is always the same. -/
def entryFromBytes (bytes : ByteString) : Option PlutusData :=
  some (GovernedMapDatum.toPlutusData ⟨"key", bytes⟩)

def entryToBytes : PlutusData → ByteString
  | .list [_, .bytes value] => value
  | _ => []

def noWallets : TemporaryWallets where
  fund _ _ := .error ⟨"no wallet"⟩
  forPaymentKey _ := .error ⟨"no wallet"⟩

def sampleOrders : IterationOrders := ⟨(sampleOrder, sampleOrder), (sampleOrder, sampleOrder)⟩

theorem sample_assumed (value : ByteString) :
    Assumed entryFromBytes entryToBytes (fun _ => .filled 28 9) sampleValidator samplePolicy
      noWallets sampleContext (.ok sampleGovernance) "key" value [entryUtxo 1, entryUtxo 2] where
  unique := by decide +kernel
  oneToken := by decide +kernel
  payment := by
    unfold Apart
    decide +kernel
  wallet := by simp [noWallets]
  change := by decide +kernel
  governance := by
    rintro _ costs minting hgovernance hminting
    obtain rfl := Except.ok.inj hgovernance
    obtain rfl := Except.ok.inj hminting
    decide +kernel
  datum := rfl

/-- Two entries are replaced by one. -/
theorem map_operations_effect_iff_replaced :
    ∃ result after supplyChange,
      runUpdate sampleLib (fun _ => .filled 28 9) sampleValidator samplePolicy sampleClient
        noWallets sampleOrders entryFromBytes sampleContext (.ok sampleGovernance) "key" [3] none
        [entryUtxo 1, entryUtxo 2] = .ok (some result) ∧
      IsSet entryFromBytes samplePolicy.scriptHash "key" [3] after ∧
      OthersKept entryFromBytes samplePolicy.scriptHash "key" [entryUtxo 1, entryUtxo 2] after
        supplyChange := by
  have hupdate := (map_operations_effect_iff sampleLib sampleClient sampleOrders
    (sample_assumed [3])).2.1
  refine ⟨_, [entryUtxo 3], _, rfl, (hupdate none _ _ _ _ rfl rfl (.applied sampleGovernance _ _ _
    rfl ⟨rfl, rfl⟩ ⟨[entryUtxo 3], ?_, ?_⟩)).mpr ⟨?_, ?_⟩⟩
  · exact .cons ⟨rfl, rfl, rfl⟩ .nil
  · rfl
  · decide +kernel
  · decide +kernel

/-- The first entry has the value already, so the other one is left as it is. -/
theorem second_value_remains :
    Assumed entryFromBytes entryToBytes (fun _ => .filled 28 9) sampleValidator samplePolicy
      noWallets sampleContext (.ok sampleGovernance) "key" [1] [entryUtxo 1, entryUtxo 2] ∧
    runUpdate sampleLib (fun _ => .filled 28 9) sampleValidator samplePolicy sampleClient noWallets
      sampleOrders entryFromBytes sampleContext (.ok sampleGovernance) "key" [1] none
      [entryUtxo 1, entryUtxo 2] = .ok none ∧
    mapEntry entryFromBytes samplePolicy.scriptHash (entryUtxo 2) = some ⟨"key", [2]⟩ ∧
    ¬ IsSet entryFromBytes samplePolicy.scriptHash "key" [1] [entryUtxo 1, entryUtxo 2] := by
  have hentry : mapEntry entryFromBytes samplePolicy.scriptHash (entryUtxo 2) =
      some ⟨"key", [2]⟩ := by decide +kernel
  refine ⟨sample_assumed [1], rfl, hentry, fun hset => ?_⟩
  have hvalue := hset.2 (entryUtxo 2) (by simp) _ hentry rfl
  simp at hvalue

end PartnerChains.SmartContracts.MapOutputs
