import PartnerChains.Algorithm.TransactionBuilding

/-!
# What is in a balanced transaction

The inputs are those that the builder was told and some of the payment key. An evaluation by
Ogmios gives each script input its cost, under the position of the input.
-/

namespace PartnerChains.SmartContracts

open Fallible KeyedMap

/-! ## Inputs -/

@[simp]
theorem mem_sortInputs {inputs : List UtxoId} {id : UtxoId} :
    id ∈ sortInputs inputs ↔ id ∈ inputs := by
  rw [sortInputs, (List.perm_insertionSort _ _).mem_iff, List.mem_dedup]

namespace TransactionBuilder

variable (builder : TransactionBuilder) (added : List OgmiosUtxo)
  (change : List TransactionOutput)

theorem mem_build_inputs {id : UtxoId} :
    id ∈ (builder.build added change).inputs ↔ id ∈ builder.scriptIds ∨
      id ∈ builder.regularInputs.map (·.utxoId) ∨ id ∈ added.map (·.utxoId) := by
  simp only [build, mem_sortInputs, List.mem_append, or_assoc]

def position (id : UtxoId) : ℕ := (builder.build added change).inputs.idxOf id

theorem position_inj {id id' : UtxoId} (h : id ∈ builder.scriptIds)
    (heq : builder.position added change id = builder.position added change id') : id = id' :=
  (List.idxOf_inj ((mem_build_inputs _ _ _).mpr (.inl h))).mp heq

theorem build_redeemers_index :
    (builder.build added change).redeemers.map (·.index) =
      builder.scriptIds.map (builder.position added change) := by
  simp [build, scriptIds, position, Function.comp_def]

theorem build_redeemers_nodup (h : builder.scriptIds.Nodup) :
    ((builder.build added change).redeemers.map (·.index)).Nodup := by
  rw [build_redeemers_index]
  exact h.map_on fun id hid id' _ heq => builder.position_inj added change hid heq

end TransactionBuilder

/-! ## Balancing -/

variable {ctx : TransactionContext} {lib : SerializationLib}

theorem exists_tryBalance_of_balanceWith {builder : TransactionBuilder}
    {selected inputs : List OgmiosUtxo} {tx : BalancedTransaction}
    (h : balanceWith lib builder ctx selected inputs = .ok tx) :
    ∃ collateral, lib.tryBalance builder ctx collateral = .ok tx := by
  induction inputs generalizing selected with
  | nil => exact ⟨selected, h⟩
  | cons input inputs ih =>
      rw [balanceWith] at h
      cases htry : lib.tryBalance builder ctx selected with
      | ok tx' =>
          rw [htry] at h
          exact ⟨selected, htry.trans h⟩
      | error e =>
          rw [htry] at h
          exact ih h

/-- A transaction that the builder was balanced to. -/
structure BuiltFrom (builder : TransactionBuilder) (ctx : TransactionContext)
    (tx : BalancedTransaction) (added : List OgmiosUtxo) (change : List TransactionOutput) :
    Prop where
  added_subset : added ⊆ ctx.paymentKeyUtxos
  change_address : ∀ output ∈ change, output.address = ctx.changeAddress
  tx_eq : tx = builder.build added change

theorem exists_builtFrom {builder : TransactionBuilder} {tx : BalancedTransaction}
    (h : balanceUpdateAndBuild lib builder ctx = .ok tx) :
    ∃ added change, BuiltFrom builder ctx tx added change := by
  obtain ⟨collateral, hcollateral⟩ := exists_tryBalance_of_balanceWith (mapError_eq_ok_iff.mp h)
  obtain ⟨added, change, hadded, hchange, htx⟩ := lib.builds _ _ _ _ hcollateral
  exact ⟨added, change, hadded, hchange, htx⟩

/-- The inputs of a balanced transaction have sums that fit. -/
theorem SerializationLib.ChecksSums.sum_lt (hlib : lib.ChecksSums) {builder : TransactionBuilder}
    {tx : BalancedTransaction} (h : balanceUpdateAndBuild lib builder ctx = .ok tx)
    (policyId : PolicyId) (assetName : AssetName) :
    (builder.scriptInputs.map fun input =>
      (input.utxo.value.nativeTokens.getAsset policyId assetName).toNat).sum < 2 ^ 64 := by
  obtain ⟨collateral, hcollateral⟩ := exists_tryBalance_of_balanceWith (mapError_eq_ok_iff.mp h)
  exact hlib _ _ _ _ hcollateral policyId assetName

/-- The payment key owns what the transactions of a call need. -/
def Balances {α : Type} (call : Except BuildError α) : Prop :=
  ∀ cause, call ≠ .error (couldNotBalance cause)

namespace Balances

theorem of_bind {α β : Type} {x : Except BuildError α} {f : α → Except BuildError β}
    (h : Balances (x >>= f)) : Balances x := by
  rintro cause rfl
  exact h cause rfl

theorem of_ok {α : Type} {call : Except BuildError α} {value : α} (h : call = .ok value) :
    Balances call := by
  intro cause herror
  cases h.symm.trans herror

theorem exists_ok {builder : TransactionBuilder}
    (h : Balances (balanceUpdateAndBuild lib builder ctx)) :
    ∃ tx, balanceUpdateAndBuild lib builder ctx = .ok tx := by
  unfold balanceUpdateAndBuild at h ⊢
  cases hbalance : balanceWith lib builder ctx [] (maxPossibleCollaterals ctx) with
  | ok tx => exact ⟨tx, rfl⟩
  | error cause =>
      rw [hbalance] at h
      exact absurd rfl (h cause)

end Balances

/-! ## Evaluation -/

namespace Costs

variable {tx : BalancedTransaction} {responses : List OgmiosEvaluateTransactionResponse}

def spendEntries (responses : List OgmiosEvaluateTransactionResponse) : List (ℕ × ExUnits) :=
  (responses.filter (·.purpose = "spend")).map fun er => (er.index, exUnitsFromResponse er)

def mintEntries (tx : BalancedTransaction)
    (responses : List OgmiosEvaluateTransactionResponse) : List (ScriptHash × ExUnits) :=
  (responses.filter (·.purpose = "mint")).filterMap fun er =>
    tx.mint[er.index]?.map fun minting => (minting.policy, exUnitsFromResponse er)

variable {er : OgmiosEvaluateTransactionResponse}

theorem insertResponse_mint {minting : Minting} (maps : Maps) (hpurpose : er.purpose = "mint")
    (h : tx.mint[er.index]? = some minting) :
    insertResponse tx maps er =
      .ok (maps.1.insert minting.policy (exUnitsFromResponse er), maps.2) := by
  have hnonempty : tx.mint.isEmpty = false := by
    cases hmint : tx.mint with
    | nil => simp [hmint] at h
    | cons => rfl
  simp [insertResponse, hpurpose, hnonempty, h]

theorem insertResponse_spend (maps : Maps) (hpurpose : er.purpose = "spend") :
    insertResponse tx maps er = .ok (maps.1, maps.2.insert er.index (exUnitsFromResponse er)) := by
  simp [insertResponse, hpurpose]

theorem insertResponse_other (maps : Maps) (hmint : er.purpose ≠ "mint")
    (hspend : er.purpose ≠ "spend") :
    insertResponse tx maps er = .ok maps := by
  unfold insertResponse
  split
  · exact absurd ‹_› hmint
  · exact absurd ‹_› hspend
  · rfl

theorem foldlM_insertResponse (maps : Maps)
    (h : ∀ er ∈ responses, er.purpose = "mint" → er.index < tx.mint.length) :
    responses.foldlM (insertResponse tx) maps =
      .ok (insertAll maps.1 (mintEntries tx responses),
        insertAll maps.2 (spendEntries responses)) := by
  induction responses generalizing maps with
  | nil => rfl
  | cons er responses ih =>
      have hrest (er' : OgmiosEvaluateTransactionResponse) (hmem : er' ∈ responses) :=
        h er' (List.mem_cons_of_mem _ hmem)
      rw [List.foldlM_cons]
      by_cases hmint : er.purpose = "mint"
      · have hlt := h er List.mem_cons_self hmint
        have hget : tx.mint[er.index]? = some tx.mint[er.index] := List.getElem?_eq_getElem hlt
        rw [insertResponse_mint maps hmint hget, ok_bind, ih _ hrest]
        simp [mintEntries, spendEntries, hmint, hget]
      · by_cases hspend : er.purpose = "spend"
        · rw [insertResponse_spend maps hspend, ok_bind, ih _ hrest]
          simp [mintEntries, spendEntries, hspend]
        · rw [insertResponse_other maps hmint hspend, ok_bind, ih _ hrest]
          simp [mintEntries, spendEntries, hmint, hspend]

end Costs

/-- One evaluation for each script input, and one for each minting script. -/
structure Evaluation (tx : BalancedTransaction)
    (responses : List OgmiosEvaluateTransactionResponse) : Prop where
  spends : ((Costs.spendEntries responses).map (·.1)).Perm (tx.redeemers.map (·.index))
  mints : ∀ er ∈ responses, er.purpose = "mint" → er.index < tx.mint.length
  minted : ∀ (index : ℕ) minting, tx.mint[index]? = some minting → minting.redeemer.isSome →
    ∃ er ∈ responses, er.purpose = "mint" ∧ er.index = index

def Client.Evaluates (client : Client) : Prop :=
  ∀ tx, ∃ responses, client.evaluateTransaction tx = .ok responses ∧ Evaluation tx responses

/-- The cost that Ogmios reports for the input at a position. -/
def Client.reportedCost (client : Client) (tx : BalancedTransaction) (index : ℕ) :
    Option ExUnits :=
  (client.evaluateTransaction tx).toOption.bind fun responses =>
    (responses.find? fun er => er.purpose = "spend" ∧ er.index = index).map exUnitsFromResponse

/-- What the costs of an evaluation say about its transaction. -/
structure Costs.Reports (client : Client) (tx : BalancedTransaction)
    (mints : AList fun _ : ScriptHash => ExUnits) (spends : AList fun _ : ℕ => ExUnits) :
    Prop where
  keys : spends.keys.Perm (tx.redeemers.map (·.index))
  lookup : ∀ index, spends.lookup index = client.reportedCost tx index
  minted : ∀ minting ∈ tx.mint, minting.redeemer.isSome → minting.policy ∈ mints

theorem Costs.lookup_spendEntries {responses : List OgmiosEvaluateTransactionResponse}
    (hnodup : ((spendEntries responses).map (·.1)).Nodup) (index : ℕ) :
    (insertAll ∅ (spendEntries responses)).lookup index = (responses.find? fun er =>
      er.purpose = "spend" ∧ er.index = index).map exUnitsFromResponse := by
  cases hfind : responses.find? fun er => er.purpose = "spend" ∧ er.index = index with
  | some er =>
      have hfound := List.find?_some hfind
      rw [decide_eq_true_iff] at hfound
      obtain ⟨hpurpose, rfl⟩ := hfound
      refine lookup_insertAll_of_mem hnodup (List.mem_map.mpr ⟨er, ?_, rfl⟩)
      simp [List.mem_of_find?_eq_some hfind, hpurpose]
  | none =>
      rw [lookup_insertAll_of_notMem, AList.lookup_empty]
      · rfl
      · simp only [List.find?_eq_none, decide_eq_true_iff] at hfind
        simpa [spendEntries] using fun er hmem hpurpose heq => hfind er hmem ⟨hpurpose, heq⟩

variable {client : Client}

theorem Costs.exists_fromOgmios (hclient : client.Evaluates) (order : IterationOrder)
    {tx : BalancedTransaction} (hnodup : (tx.redeemers.map (·.index)).Nodup) :
    ∃ mints spends, fromOgmios client order tx = .ok (.costs mints spends) ∧
      Reports client tx mints spends := by
  obtain ⟨responses, hresponses, hevaluation⟩ := hclient tx
  have hindices : ((spendEntries responses).map (·.1)).Nodup :=
    hevaluation.spends.nodup_iff.mpr hnodup
  have hfold := foldlM_insertResponse (∅, ∅) hevaluation.mints
  refine ⟨insertAll ∅ (mintEntries tx responses),
    order.arrange (insertAll ∅ (spendEntries responses)), by simp [fromOgmios, hresponses, hfold],
    ?_, ?_, ?_⟩
  · exact (((order.perm _).map Sigma.fst).trans (keys_insertAll_perm hindices)).trans
      hevaluation.spends
  · intro index
    rw [Client.reportedCost, hresponses, AList.perm_lookup (order.perm _)]
    exact lookup_spendEntries hindices index
  · intro minting hmem hredeemer
    obtain ⟨index, hindex⟩ := List.mem_iff_getElem?.mp hmem
    obtain ⟨er, her, hpurpose, rfl⟩ := hevaluation.minted index minting hindex hredeemer
    rw [mem_insertAll]
    refine .inr (List.mem_map.mpr ⟨(minting.policy, exUnitsFromResponse er), ?_, rfl⟩)
    exact List.mem_filterMap.mpr ⟨er, by simp [her, hpurpose], by simp [hindex]⟩

/-- The transaction that is evaluated last. -/
def Costs.LastEvaluated (makeTx : Costs → Except BuildError BalancedTransaction) (client : Client)
    (first : IterationOrder) (tx : BalancedTransaction) : Prop :=
  ∃ tx₀ costs, makeTx .zeroCosts = .ok tx₀ ∧ fromOgmios client first tx₀ = .ok costs ∧
    makeTx costs = .ok tx

/-- The last of the three transactions has the costs of the second one. -/
theorem Costs.calculateCosts_eq_ok_iff {makeTx : Costs → Except BuildError BalancedTransaction}
    {first second : IterationOrder} {tx : BalancedTransaction} :
    calculateCosts makeTx client first second = .ok tx ↔
      ∃ evaluated costs, LastEvaluated makeTx client first evaluated ∧
        fromOgmios client second evaluated = .ok costs ∧ makeTx costs = .ok tx := by
  simp only [calculateCosts, bind_eq_ok_iff]
  constructor
  · rintro ⟨tx₀, htx₀, costs₁, hcosts₁, tx₁, htx₁, costs₂, hcosts₂, htx⟩
    exact ⟨tx₁, costs₂, ⟨tx₀, costs₁, htx₀, hcosts₁, htx₁⟩, hcosts₂, htx⟩
  · rintro ⟨tx₁, costs₂, ⟨tx₀, costs₁, htx₀, hcosts₁, htx₁⟩, hcosts₂, htx⟩
    exact ⟨tx₀, htx₀, costs₁, hcosts₁, tx₁, htx₁, costs₂, hcosts₂, htx⟩

/-- The last transaction of a call is balanced when the call is. -/
theorem Costs.LastEvaluated.balances {makeTx : Costs → Except BuildError BalancedTransaction}
    {first second : IterationOrder} {evaluated : BalancedTransaction} {costs : Costs}
    (h : LastEvaluated makeTx client first evaluated)
    (hcosts : fromOgmios client second evaluated = .ok costs)
    (hcall : Balances (calculateCosts makeTx client first second)) : Balances (makeTx costs) := by
  obtain ⟨tx₀, costs₁, htx₀, hcosts₁, htx₁⟩ := h
  rwa [calculateCosts, htx₀, ok_bind, hcosts₁, ok_bind, htx₁, ok_bind, hcosts, ok_bind] at hcall

/-! ### A library that balances with all outputs of the payment key -/

def tokenTotal (tokens : MultiAsset) : ℕ :=
  (tokens.entries.map fun policy => (policy.2.entries.map fun asset => asset.2.toNat).sum).sum

theorem getAsset_le_tokenTotal (tokens : MultiAsset) (policyId : PolicyId)
    (assetName : AssetName) : (tokens.getAsset policyId assetName).toNat ≤ tokenTotal tokens := by
  unfold MultiAsset.getAsset
  cases hassets : tokens.lookup policyId with
  | none => simp
  | some assets =>
      cases hamount : assets.lookup assetName with
      | none => simp [hamount]
      | some amount =>
          have hpolicy := List.le_sum_of_mem (List.mem_map_of_mem
            (f := fun policy => (policy.2.entries.map fun asset => asset.2.toNat).sum)
            (AList.mem_lookup_iff.mp hassets))
          have hasset := List.le_sum_of_mem (List.mem_map_of_mem (f := fun asset => asset.2.toNat)
            (AList.mem_lookup_iff.mp hamount))
          simpa [hamount, tokenTotal] using hasset.trans hpolicy

def sampleLib : SerializationLib where
  tryBalance builder ctx _ :=
    if (builder.scriptInputs.map fun input => tokenTotal input.utxo.value.nativeTokens).sum <
        2 ^ 64 then .ok (builder.build ctx.paymentKeyUtxos [])
    else .error "overflow"
  builds builder ctx _ tx h := by
    split_ifs at h
    exact ⟨ctx.paymentKeyUtxos, [], List.Subset.refl _, by simp, (Except.ok.inj h).symm⟩

theorem sampleLib_checksSums : sampleLib.ChecksSums := by
  intro builder ctx collateral tx h policyId assetName
  simp only [sampleLib] at h
  split_ifs at h with hsum
  exact (List.sum_le_sum fun input _ => getAsset_le_tokenTotal _ _ _).trans_lt hsum

end PartnerChains.SmartContracts
