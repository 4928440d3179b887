import PartnerChains.Algorithm.GovernedMapTransactions
import PartnerChains.Algorithm.ReserveRelease
import PartnerChains.Verification.SmartContracts.Registration
import PartnerChains.Verification.SmartContracts.Values

/-!
# Which input gets which cost

Costs are reported by the position of the input. The entries of the governed map are given the
costs in the order in which a hash map is iterated, and the reserve is given the higher one of two.
An input has the cost that was reported for it only when the costs are alike, or when the reserve
costs more.
-/

namespace PartnerChains.SmartContracts

open Fallible

/-! ## Costs of the final transaction -/

def BalancedTransaction.exUnitsOf (tx : BalancedTransaction) (id : UtxoId) : Option ExUnits :=
  (tx.redeemers.find? fun redeemer => redeemer.index = tx.inputs.idxOf id).map (·.exUnits)

def Client.costOf (client : Client) (tx : BalancedTransaction) (id : UtxoId) : Option ExUnits :=
  client.reportedCost tx (tx.inputs.idxOf id)

/-- Neither memory nor steps are below what is reported. -/
def ExUnits.Covers (granted reported : ExUnits) : Prop :=
  reported.mem ≤ granted.mem ∧ reported.steps ≤ granted.steps

/-- Whatever the order of iteration after the last evaluation, the final transaction grants each
of the outputs what was reported for it. -/
def CostsReach (makeTx : Costs → Except BuildError BalancedTransaction) (client : Client)
    (first : IterationOrder) (evaluated : BalancedTransaction) (utxos : List OgmiosUtxo) : Prop :=
  ∀ second tx, Costs.calculateCosts makeTx client first second = .ok tx →
    ∀ utxo ∈ utxos, ∀ reported ∈ client.costOf evaluated utxo.utxoId,
      ∃ granted ∈ tx.exUnitsOf utxo.utxoId, granted.Covers reported

theorem ExUnits.Covers.antisymm {a b : ExUnits} (hab : a.Covers b) (hba : b.Covers a) : a = b := by
  obtain ⟨hmem, hsteps⟩ := hab
  obtain ⟨hmem', hsteps'⟩ := hba
  cases a
  cases b
  simp only [ExUnits.mk.injEq]
  exact ⟨UInt64.le_antisymm hmem' hmem, UInt64.le_antisymm hsteps' hsteps⟩

theorem find?_eq_some_of_nodup {α κ : Type} [DecidableEq κ] {key : α → κ} {xs : List α} {x : α}
    (hnodup : (xs.map key).Nodup) (hx : x ∈ xs) : xs.find? (fun y => key y = key x) = some x := by
  cases hfind : xs.find? fun y => key y = key x with
  | none => simpa using List.find?_eq_none.mp hfind x hx
  | some y =>
      have hkey := List.find?_some hfind
      rw [decide_eq_true_eq] at hkey
      rw [List.inj_on_of_nodup_map hnodup (List.mem_of_find?_eq_some hfind) hx hkey]

variable {builder : TransactionBuilder} {input : ScriptInput}

theorem exUnitsOf_build (added : List OgmiosUtxo) (change : List TransactionOutput)
    (hnodup : builder.scriptIds.Nodup) (hinput : input ∈ builder.scriptInputs) :
    (builder.build added change).exUnitsOf input.utxo.utxoId = some input.exUnits := by
  have hfind := find?_eq_some_of_nodup (builder.build_redeemers_nodup added change hnodup)
    (List.mem_map.mpr ⟨input, hinput, rfl⟩ : _ ∈ (builder.build added change).redeemers)
  exact congrArg (Option.map (·.exUnits)) hfind

/-! ## Orders of iteration -/

variable {i : ℕ}

/-- Every element of a list has every place in some permutation. -/
theorem exists_perm_getElem? {α : Type} {x : α} {xs : List α} (hx : x ∈ xs) (hi : i < xs.length) :
    ∃ ys : List α, ys.Perm xs ∧ ys[i]? = some x := by
  obtain ⟨before, after, rfl⟩ := List.append_of_mem hx
  have hle : i ≤ (before ++ after).length := by
    rw [List.length_append, List.length_cons] at hi
    rw [List.length_append]
    omega
  refine ⟨(before ++ after).insertIdx i x, ?_, ?_⟩
  · exact (List.perm_insertIdx x _ hle).trans List.perm_middle.symm
  · rw [List.getElem?_insertIdx_self, if_pos hle]

namespace Costs

variable {client : Client} {tx : BalancedTransaction} {order : IterationOrder}
  {mints : AList fun _ : ScriptHash => ExUnits} {spends spends' : AList fun _ : ℕ => ExUnits}

theorem Reports.of_perm (h : Reports client tx mints spends)
    (hperm : spends'.entries.Perm spends.entries) : Reports client tx mints spends' where
  keys := (hperm.map Sigma.fst).trans h.keys
  lookup index := (AList.perm_lookup hperm).trans (h.lookup index)
  minted := h.minted

/-- A hash map may be iterated in any order. -/
theorem exists_order (h : fromOgmios client order tx = .ok (.costs mints spends))
    (hperm : spends'.entries.Perm spends.entries) :
    ∃ order', fromOgmios client order' tx = .ok (.costs mints spends') := by
  classical
  obtain ⟨responses, hresponses, h⟩ := bind_eq_ok_iff.mp h
  obtain ⟨maps, hmaps, h⟩ := bind_eq_ok_iff.mp h
  obtain ⟨rfl, rfl⟩ : maps.1 = mints ∧ order.arrange maps.2 = spends := by simpa using h
  let order' : IterationOrder :=
    { arrange := fun spends => if spends = maps.2 then spends' else spends
      perm := by
        intro spends
        split_ifs with heq
        · rw [heq]
          exact hperm.trans (order.perm maps.2)
        · rfl }
  refine ⟨order', ?_⟩
  rw [fromOgmios, hresponses, ok_bind, hmaps, ok_bind]
  simp [order']

theorem getSpend_spendIndices (mints : AList fun _ : ScriptHash => ExUnits)
    (hi : i < spends.entries.length) :
    getSpend ((getSpendIndices (.costs mints spends))[i]?.getD 0) (.costs mints spends) =
      .ok spends.entries[i].2 := by
  have hkey : (getSpendIndices (.costs mints spends))[i]? = some spends.entries[i].1 := by
    simp [getSpendIndices, AList.keys, List.keys, hi]
  have hlookup : spends.lookup spends.entries[i].1 = some spends.entries[i].2 :=
    AList.mem_lookup_iff.mpr (List.getElem_mem hi)
  rw [hkey, Option.getD_some, getSpend, hlookup]
  rfl

theorem values_perm {indices : List ℕ} {cost : ℕ → ExUnits} (hkeys : spends.keys.Perm indices)
    (hcost : ∀ index ∈ indices, spends.lookup index = some (cost index)) :
    (spends.entries.map (·.2)).Perm (indices.map cost) := by
  have hvalues : spends.entries.map (·.2) = spends.keys.map cost := by
    rw [AList.keys, List.keys, List.map_map]
    refine List.map_congr_left fun entry hentry => ?_
    have hindex := hcost entry.1 (hkeys.mem_iff.mp (List.mem_map_of_mem hentry))
    rw [AList.mem_lookup_iff.mpr hentry] at hindex
    exact Option.some.inj hindex
  rw [hvalues]
  exact hkeys.map cost

theorem LastEvaluated.unique {makeTx : Costs → Except BuildError BalancedTransaction}
    {tx tx' : BalancedTransaction} (h : LastEvaluated makeTx client order tx)
    (h' : LastEvaluated makeTx client order tx') : tx = tx' := by
  obtain ⟨tx₀, costs, htx₀, hcosts, htx⟩ := h
  obtain ⟨tx₀', costs', htx₀', hcosts', htx'⟩ := h'
  obtain rfl := Except.ok.inj (htx₀.symm.trans htx₀')
  obtain rfl := Except.ok.inj (hcosts.symm.trans hcosts')
  exact Except.ok.inj (htx.symm.trans htx')

end Costs

/-- The condition in terms of the costs of the last evaluation. -/
theorem costsReach_iff {makeTx : Costs → Except BuildError BalancedTransaction} {client : Client}
    {first : IterationOrder} {evaluated : BalancedTransaction} {utxos : List OgmiosUtxo}
    (h : Costs.LastEvaluated makeTx client first evaluated) :
    CostsReach makeTx client first evaluated utxos ↔
      ∀ second costs tx, Costs.fromOgmios client second evaluated = .ok costs →
        makeTx costs = .ok tx → ∀ utxo ∈ utxos, ∀ reported ∈ client.costOf evaluated utxo.utxoId,
          ∃ granted ∈ tx.exUnitsOf utxo.utxoId, granted.Covers reported := by
  constructor
  · intro hreach second costs tx hcosts htx
    exact hreach second tx (Costs.calculateCosts_eq_ok_iff.mpr ⟨evaluated, costs, h, hcosts, htx⟩)
  · intro hreach second tx htx
    obtain ⟨evaluated', costs, hevaluated, hcosts, htx⟩ := Costs.calculateCosts_eq_ok_iff.mp htx
    obtain rfl := h.unique hevaluated
    exact hreach second costs tx hcosts htx

/-! ## Entries of the governed map -/

section KeyInputs

variable {validator : PlutusScript} {data : PlutusData} {utxos : List OgmiosUtxo} {costs : Costs}
  {mints : AList fun _ : ScriptHash => ExUnits} {spends : AList fun _ : ℕ => ExUnits}

theorem addScriptUtxoInput_eq_ok {utxo : OgmiosUtxo} {exUnits : ExUnits}
    (h : addScriptUtxoInput utxo validator data exUnits = .ok input) :
    input = ⟨utxo, validator.scriptHash, data, exUnits⟩ := by
  obtain ⟨utxo', hutxo, h⟩ := bind_eq_ok_iff.mp h
  obtain ⟨value, -, hvalue⟩ := bind_eq_ok_iff.mp hutxo
  cases hvalue
  cases h
  rfl

theorem ids_of_keyInputs {inputs : List ScriptInput}
    (h : keyInputs validator data utxos costs = .ok inputs) :
    inputs.map (·.utxo.utxoId) = utxos.map (·.utxoId) := by
  have hids : inputs.map (·.utxo.utxoId) = utxos.zipIdx.map (OgmiosUtxo.utxoId ∘ Prod.fst) := by
    refine map_eq_of_mapM h fun entry input hinput => ?_
    obtain ⟨exUnits, -, hadd⟩ := bind_eq_ok_iff.mp hinput
    rw [addScriptUtxoInput_eq_ok hadd]
    rfl
  rw [hids, ← List.map_map, List.zipIdx_map_fst]

theorem convertible_of_keyInputs {inputs : List ScriptInput}
    (h : keyInputs validator data utxos costs = .ok inputs) :
    ∀ utxo ∈ utxos, utxo.Convertible := by
  intro utxo hutxo
  obtain ⟨entry, hentry, rfl⟩ : ∃ entry ∈ utxos.zipIdx, entry.1 = utxo := by
    rw [← List.zipIdx_map_fst 0 utxos] at hutxo
    exact List.mem_map.mp hutxo
  obtain ⟨input, hinput⟩ := exists_ok_of_mem h hentry
  obtain ⟨exUnits, -, hadd⟩ := bind_eq_ok_iff.mp hinput
  obtain ⟨utxo', hutxo', -⟩ := bind_eq_ok_iff.mp hadd
  obtain ⟨value, hvalue, -⟩ := bind_eq_ok_iff.mp hutxo'
  exact ⟨value, mapError_eq_ok_iff.mp hvalue⟩

/-- The costs are given out in the order of iteration. -/
theorem keyInputs_costs (hutxos : ∀ utxo ∈ utxos, utxo.Convertible)
    (hlength : spends.entries.length = utxos.length) :
    keyInputs validator data utxos (.costs mints spends) =
      .ok (List.zipWith (fun utxo entry => ⟨utxo, validator.scriptHash, data, entry.2⟩) utxos
        spends.entries) := by
  refine mapM_eq_ok_iff.mpr (List.forall₂_iff_get.mpr ⟨by simp [hlength], fun i h h' => ?_⟩)
  rw [List.length_zipIdx] at h
  have hcost := Costs.getSpend_spendIndices mints (by omega : i < spends.entries.length)
  have hinput := scriptInput_of_convertible (hutxos utxos[i] (List.getElem_mem h))
  simp only [List.get_eq_getElem, List.getElem_zipIdx, List.getElem_zipWith, Nat.zero_add]
  rw [hcost]
  simp [addScriptUtxoInput, hinput]

end KeyInputs

/-- A transaction that spends the outputs one by one, with the costs in the order of iteration.
It can be made again with the costs of its evaluation. -/
structure SpendsInOrder (makeTx : Costs → Except BuildError BalancedTransaction)
    (validator : PlutusScript) (data : PlutusData) (utxos : List OgmiosUtxo) : Prop where
  built : ∀ {costs tx}, makeTx costs = .ok tx → ∃ builder added change,
    keyInputs validator data utxos costs = .ok builder.scriptInputs ∧
      tx = TransactionBuilder.build builder added change
  again : ∀ {costs tx client mints spends}, makeTx costs = .ok tx →
    Costs.Reports client tx mints spends → spends.entries.length = utxos.length →
      Balances (makeTx (.costs mints spends)) → ∃ tx', makeTx (.costs mints spends) = .ok tx'

section SpendsInOrder

variable {makeTx : Costs → Except BuildError BalancedTransaction} {validator : PlutusScript}
  {data : PlutusData} {utxos : List OgmiosUtxo} {client : Client} {first : IterationOrder}
  {evaluated : BalancedTransaction} {mints : AList fun _ : ScriptHash => ExUnits}
  {spends : AList fun _ : ℕ => ExUnits}

/-- The costs of an evaluation have the positions of the outputs. -/
theorem SpendsInOrder.keys_perm (h : SpendsInOrder makeTx validator data utxos) {costs : Costs}
    (htx : makeTx costs = .ok evaluated) (hreports : Costs.Reports client evaluated mints spends) :
    spends.keys.Perm (utxos.map fun utxo => evaluated.inputs.idxOf utxo.utxoId) := by
  obtain ⟨builder, added, change, hinputs, rfl⟩ := h.built htx
  refine hreports.keys.trans (.of_eq ?_)
  rw [builder.build_redeemers_index, TransactionBuilder.scriptIds, ids_of_keyInputs hinputs,
    List.map_map]
  rfl

/-- The final transaction grants each output the cost at its place in the order of iteration. -/
theorem SpendsInOrder.exUnitsOf_eq (h : SpendsInOrder makeTx validator data utxos)
    (hnodup : (utxos.map (·.utxoId)).Nodup) {tx : BalancedTransaction}
    (htx : makeTx (.costs mints spends) = .ok tx) (hlength : spends.entries.length = utxos.length)
    (hi : i < utxos.length) :
    tx.exUnitsOf utxos[i].utxoId = some (spends.entries[i]).2 := by
  obtain ⟨builder, added, change, hinputs, rfl⟩ := h.built htx
  have hids := ids_of_keyInputs hinputs
  rw [keyInputs_costs (convertible_of_keyInputs hinputs) hlength, Except.ok.injEq] at hinputs
  have hmem : (⟨utxos[i], validator.scriptHash, data, spends.entries[i].2⟩ : ScriptInput) ∈
      builder.scriptInputs := by
    rw [← hinputs]
    exact List.mem_iff_getElem.mpr ⟨i, by simp [hlength, hi], by simp⟩
  exact exUnitsOf_build added change (by rwa [TransactionBuilder.scriptIds, hids]) hmem

variable (h : SpendsInOrder makeTx validator data utxos) (hclient : client.Evaluates)
  (hnodup : (utxos.map (·.utxoId)).Nodup)
  (hevaluated : Costs.LastEvaluated makeTx client first evaluated)

include h hclient hnodup hevaluated

theorem SpendsInOrder.exists_reports (second : IterationOrder) :
    ∃ mints spends, Costs.fromOgmios client second evaluated = .ok (.costs mints spends) ∧
      Costs.Reports client evaluated mints spends ∧
      spends.keys.Perm (utxos.map fun utxo => evaluated.inputs.idxOf utxo.utxoId) := by
  obtain ⟨_, _, -, -, htx⟩ := hevaluated
  obtain ⟨builder, added, change, hinputs, rfl⟩ := h.built htx
  have hredeemers := builder.build_redeemers_nodup added change
    (by rwa [TransactionBuilder.scriptIds, ids_of_keyInputs hinputs])
  obtain ⟨mints, spends, hcosts, hreports⟩ := Costs.exists_fromOgmios hclient second hredeemers
  exact ⟨mints, spends, hcosts, hreports, h.keys_perm htx hreports⟩

theorem SpendsInOrder.exists_costOf {utxo : OgmiosUtxo} (hutxo : utxo ∈ utxos) :
    ∃ cost, client.costOf evaluated utxo.utxoId = some cost := by
  obtain ⟨mints, spends, -, hreports, hkeys⟩ := h.exists_reports hclient hnodup hevaluated first
  have hmem : evaluated.inputs.idxOf utxo.utxoId ∈ spends := by
    rw [AList.mem_keys, hkeys.mem_iff]
    exact List.mem_map_of_mem hutxo
  rw [Client.costOf, ← hreports.lookup]
  exact Option.isSome_iff_exists.mp (AList.lookup_isSome.mpr hmem)

/-- The order of iteration may give the first output the cost of the second one. -/
theorem SpendsInOrder.covers_of_costsReach
    (hbalances : ∀ second, Balances (Costs.calculateCosts makeTx client first second))
    (hreach : CostsReach makeTx client first evaluated utxos) {a b : OgmiosUtxo} (ha : a ∈ utxos)
    {costA costB : ExUnits}
    (hcostA : client.costOf evaluated a.utxoId = some costA)
    (hcostB : client.costOf evaluated b.utxoId = some costB) : costB.Covers costA := by
  obtain ⟨mints, spends, hcosts, hreports, hkeys⟩ :=
    h.exists_reports hclient hnodup hevaluated first
  have hlength : spends.entries.length = utxos.length := by
    simpa [AList.keys, List.keys] using hkeys.length_eq
  obtain ⟨i, hi, rfl⟩ := List.mem_iff_getElem.mp ha
  have hentry : ⟨evaluated.inputs.idxOf b.utxoId, costB⟩ ∈ spends.entries := by
    rw [← AList.mem_lookup_iff, hreports.lookup]
    exact hcostB
  obtain ⟨spends', hperm, hget⟩ : ∃ spends' : AList fun _ : ℕ => ExUnits,
      spends'.entries.Perm spends.entries ∧
        spends'.entries[i]? = some ⟨evaluated.inputs.idxOf b.utxoId, costB⟩ := by
    obtain ⟨entries, hperm, hget⟩ := exists_perm_getElem? hentry (hlength ▸ hi)
    exact ⟨⟨entries, (List.perm_nodupKeys hperm).mpr spends.nodupKeys⟩, hperm, hget⟩
  obtain ⟨second, hsecond⟩ := Costs.exists_order hcosts hperm
  obtain ⟨tx, htx⟩ : ∃ tx, makeTx (.costs mints spends') = .ok tx := by
    have hmade := hevaluated
    obtain ⟨_, _, -, -, hmade⟩ := hmade
    exact h.again hmade (hreports.of_perm hperm) (hperm.length_eq.trans hlength)
      (hevaluated.balances hsecond (hbalances second))
  obtain ⟨granted, hgranted, hcovers⟩ := (SmartContracts.costsReach_iff hevaluated).mp hreach second
    _ tx hsecond htx utxos[i] ha costA hcostA
  have hunits := h.exUnitsOf_eq hnodup htx (hperm.length_eq.trans hlength) hi
  rw [hunits] at hgranted
  obtain rfl := Option.some.inj hgranted
  rw [List.getElem?_eq_some_iff] at hget
  obtain ⟨hi', hget⟩ := hget
  rwa [hget] at hcovers

/-- Every output may be given the cost of every other one. -/
theorem SpendsInOrder.costsReach_iff
    (hbalances : ∀ second, Balances (Costs.calculateCosts makeTx client first second)) :
    CostsReach makeTx client first evaluated utxos ↔
      ∀ a ∈ utxos, ∀ b ∈ utxos,
        client.costOf evaluated a.utxoId = client.costOf evaluated b.utxoId := by
  constructor
  · intro hreach a ha b hb
    obtain ⟨costA, hcostA⟩ := h.exists_costOf hclient hnodup hevaluated ha
    obtain ⟨costB, hcostB⟩ := h.exists_costOf hclient hnodup hevaluated hb
    have hab := h.covers_of_costsReach hclient hnodup hevaluated hbalances hreach ha hcostA hcostB
    have hba := h.covers_of_costsReach hclient hnodup hevaluated hbalances hreach hb hcostB hcostA
    rw [hcostA, hcostB, hba.antisymm hab]
  · intro heq
    refine (SmartContracts.costsReach_iff hevaluated).mpr ?_
    intro second costs tx hcosts htx utxo hutxo reported hreported
    obtain ⟨mints, spends, hspends, hreports, hkeys⟩ :=
      h.exists_reports hclient hnodup hevaluated second
    obtain rfl := Except.ok.inj (hcosts.symm.trans hspends)
    have hlength : spends.entries.length = utxos.length := by
      simpa [AList.keys, List.keys] using hkeys.length_eq
    obtain ⟨i, hi, rfl⟩ := List.mem_iff_getElem.mp hutxo
    refine ⟨_, h.exUnitsOf_eq hnodup htx hlength hi, ?_⟩
    -- the cost at this place was reported for one of the outputs, and so for all of them
    have hentry := List.getElem_mem (hlength ▸ hi : i < spends.entries.length)
    obtain ⟨other, hother, hposition⟩ := List.mem_map.mp
      (hkeys.mem_iff.mp (List.mem_map_of_mem hentry))
    have hcost : client.costOf evaluated other.utxoId = some spends.entries[i].2 := by
      rw [Client.costOf, hposition, ← hreports.lookup]
      exact AList.mem_lookup_iff.mpr hentry
    rw [heq utxos[i] hutxo other hother, hcost, Option.mem_some_iff] at hreported
    rw [hreported]
    exact ⟨UInt64.le_refl _, UInt64.le_refl _⟩

end SpendsInOrder

/-! ## Updates and removals -/

section GovernedMap

variable {lib : SerializationLib} {nativeScriptHash : NativeScript → ScriptHash}
  {validator policy : PlutusScript} {key : String} {value : ByteString} {utxos : List OgmiosUtxo}
  {governanceData : GovernanceData} {ctx : TransactionContext}
  {mints : AList fun _ : ScriptHash => ExUnits} {spends : AList fun _ : ℕ => ExUnits}

theorem Costs.exists_getMint {script : PlutusScript} (h : script.scriptHash ∈ mints) :
    ∃ units, getMint script (.costs mints spends) = .ok units := by
  obtain ⟨units, hunits⟩ := Option.isSome_iff_exists.mp (AList.lookup_isSome.mpr h)
  exact ⟨units, by rw [getMint, hunits]; rfl⟩

variable {minting : Minting}

theorem mem_build_mint {added : List OgmiosUtxo} {change : List TransactionOutput} :
    minting ∈ (builder.build added change).mint ↔ minting ∈ builder.mint :=
  List.mem_insertionSort _

/-- The governance token can be minted with the costs of an evaluation. -/
theorem exists_governanceMint {script : Script} {costs : Costs}
    (h : addMintOneScriptTokenUsingReferenceScript nativeScriptHash script costs = .ok minting)
    (hmem : minting.redeemer.isSome → minting.policy ∈ mints) :
    ∃ minting', addMintOneScriptTokenUsingReferenceScript nativeScriptHash script
      (.costs mints spends) = .ok minting' := by
  cases script with
  | native script => exact ⟨_, rfl⟩
  | plutus script =>
      obtain ⟨units, -, hminting⟩ := bind_eq_ok_iff.mp h
      cases hminting
      obtain ⟨units, hunits⟩ : ∃ units, Costs.getMint script (.costs mints spends) = .ok units :=
        Costs.exists_getMint (hmem rfl)
      exact ⟨_, by rw [addMintOneScriptTokenUsingReferenceScript,
        addMintScriptTokenUsingReferenceScript, hunits]; rfl⟩

theorem exists_burnOthers {costs : Costs} {burn : List Minting}
    (h : burnOthers policy utxos costs = .ok burn)
    (hmem : ∀ minting ∈ burn, minting.redeemer.isSome → minting.policy ∈ mints) :
    ∃ burn', burnOthers policy utxos (.costs mints spends) = .ok burn' := by
  unfold burnOthers at h ⊢
  split_ifs at h ⊢
  · obtain ⟨units, -, h⟩ := bind_eq_ok_iff.mp h
    cases h
    obtain ⟨units', hunits'⟩ : ∃ units', Costs.getMint policy (.costs mints spends) = .ok units' :=
      Costs.exists_getMint (hmem _ List.mem_cons_self rfl)
    exact ⟨_, by rw [hunits']; rfl⟩
  · exact ⟨_, rfl⟩

/-- Every token that needs a script was minted with the costs of that script. -/
theorem BuiltFrom.mem_mints {tx : BalancedTransaction} {added : List OgmiosUtxo}
    {change : List TransactionOutput} {client : Client} (h : BuiltFrom builder ctx tx added change)
    (hreports : Costs.Reports client tx mints spends) (hmem : minting ∈ builder.mint)
    (hredeemer : minting.redeemer.isSome) :
    minting.policy ∈ mints := by
  refine hreports.minted minting ?_ hredeemer
  rw [h.tx_eq]
  exact mem_build_mint.mpr hmem

theorem updateKeyValueTx_spendsInOrder :
    SpendsInOrder (updateKeyValueTx lib nativeScriptHash validator policy key value utxos
      governanceData · ctx) validator (.bytes []) utxos where
  built := by
    intro costs tx htx
    obtain ⟨governanceMint, -, htx⟩ := bind_eq_ok_iff.mp htx
    obtain ⟨inputs, hinputs, htx⟩ := bind_eq_ok_iff.mp htx
    obtain ⟨burn, -, htx⟩ := bind_eq_ok_iff.mp htx
    obtain ⟨added, change, hbuilt⟩ := exists_builtFrom htx
    exact ⟨_, added, change, hinputs, hbuilt.tx_eq⟩
  again := by
    intro costs tx client mints spends htx hreports hlength hbalances
    obtain ⟨governanceMint, hgovernance, htx⟩ := bind_eq_ok_iff.mp htx
    obtain ⟨inputs, hinputs, htx⟩ := bind_eq_ok_iff.mp htx
    obtain ⟨burn, hburn, htx⟩ := bind_eq_ok_iff.mp htx
    obtain ⟨added, change, hbuilt⟩ := exists_builtFrom htx
    obtain ⟨governanceMint', hgovernance'⟩ := exists_governanceMint hgovernance
      (hbuilt.mem_mints hreports List.mem_cons_self)
    obtain ⟨burn', hburn'⟩ := exists_burnOthers hburn fun minting hmem =>
      hbuilt.mem_mints hreports (List.mem_cons_of_mem _ hmem)
    rw [updateKeyValueTx, hgovernance', ok_bind,
      keyInputs_costs (convertible_of_keyInputs hinputs) hlength, ok_bind, hburn', ok_bind]
      at hbalances ⊢
    exact hbalances.exists_ok

theorem removeKeyValueTx_spendsInOrder :
    SpendsInOrder (removeKeyValueTx lib nativeScriptHash validator policy utxos governanceData ·
      ctx) validator unitPlutusData utxos where
  built := by
    intro costs tx htx
    obtain ⟨governanceMint, -, htx⟩ := bind_eq_ok_iff.mp htx
    obtain ⟨inputs, hinputs, htx⟩ := bind_eq_ok_iff.mp htx
    obtain ⟨units, -, htx⟩ := bind_eq_ok_iff.mp htx
    obtain ⟨added, change, hbuilt⟩ := exists_builtFrom htx
    exact ⟨_, added, change, hinputs, hbuilt.tx_eq⟩
  again := by
    intro costs tx client mints spends htx hreports hlength hbalances
    obtain ⟨governanceMint, hgovernance, htx⟩ := bind_eq_ok_iff.mp htx
    obtain ⟨inputs, hinputs, htx⟩ := bind_eq_ok_iff.mp htx
    obtain ⟨units, -, htx⟩ := bind_eq_ok_iff.mp htx
    obtain ⟨added, change, hbuilt⟩ := exists_builtFrom htx
    obtain ⟨governanceMint', hgovernance'⟩ := exists_governanceMint hgovernance
      (hbuilt.mem_mints hreports List.mem_cons_self)
    obtain ⟨units', hunits'⟩ : ∃ units', Costs.getMint policy (.costs mints spends) =
        .ok units' :=
      Costs.exists_getMint
        (hbuilt.mem_mints hreports (List.mem_cons_of_mem _ List.mem_cons_self) rfl)
    rw [removeKeyValueTx, hgovernance', ok_bind,
      keyInputs_costs (convertible_of_keyInputs hinputs) hlength, ok_bind, hunits', mapError_ok,
      ok_bind] at hbalances ⊢
    exact hbalances.exists_ok

end GovernedMap

/-! ## Releases -/

section Release

variable {lib : SerializationLib} {ctx : TransactionContext}
  {scripts : ScriptsData} {previousReserve : ReserveUtxo}
  {icsUtxo : OgmiosUtxo} {vFunction : Option PlutusScript} {amountToTransfer : UInt64}

/-- A release as a function of its costs. The rest of it is given. -/
def releaseWith (lib : SerializationLib) (ctx : TransactionContext)
    (scripts : ScriptsData) (reserveUtxo icsUtxo : OgmiosUtxo)
    (script : PlutusScript) (outputs : List TransactionOutput) (amount : ℤ) (costs : Costs) :
    Except BuildError BalancedTransaction := do
  let mintUnits ← (costs.getMint script).mapError .panic
  let spendCosts ← (releaseSpendCosts costs).mapError .panic
  let reserveUnits ← orElse noneUnwrapped spendCosts[1]?
  let icsUnits ← orElse noneUnwrapped spendCosts[0]?
  balanceUpdateAndBuild lib
    { scriptInputs :=
        [⟨reserveUtxo, scripts.reserveValidator.scriptHash,
            ReserveRedeemer.toPlutusData .releaseFromReserve, reserveUnits⟩,
          ⟨icsUtxo, scripts.icsValidator.scriptHash, .integer 0, icsUnits⟩]
      outputs
      mint := [⟨script.scriptHash, amount, some (unitPlutusData, mintUnits)⟩] } ctx

theorem scriptInput_of_addScriptUtxoInput {utxo : OgmiosUtxo} {validator : PlutusScript}
    {data : PlutusData} {exUnits : ExUnits}
    (h : addScriptUtxoInput utxo validator data exUnits = .ok input) :
    scriptInput utxo = .ok utxo := by
  obtain ⟨utxo', hutxo, -⟩ := bind_eq_ok_iff.mp h
  obtain ⟨value, hvalue, -⟩ := bind_eq_ok_iff.mp hutxo
  rw [scriptInput, hvalue]
  rfl

/-- A release that succeeds with some costs depends on them in this way alone. -/
theorem exists_releaseWith {costs : Costs} {tx : BalancedTransaction}
    (h : reserveReleaseTx lib ctx scripts previousReserve icsUtxo vFunction amountToTransfer costs =
      .ok tx) :
    ∃ script outputs amount,
      reserveReleaseTx lib ctx scripts previousReserve icsUtxo vFunction amountToTransfer =
        releaseWith lib ctx scripts previousReserve.utxo icsUtxo script outputs amount := by
  obtain ⟨cumulative, hcumulative, h⟩ := bind_eq_ok_iff.mp h
  obtain ⟨left, hleft, h⟩ := bind_eq_ok_iff.mp h
  obtain ⟨script, hscript, h⟩ := bind_eq_ok_iff.mp h
  obtain ⟨mintUnits, -, h⟩ := bind_eq_ok_iff.mp h
  obtain ⟨spendCosts, -, h⟩ := bind_eq_ok_iff.mp h
  obtain ⟨reserveUnits, -, h⟩ := bind_eq_ok_iff.mp h
  obtain ⟨reserveInput, hreserve, h⟩ := bind_eq_ok_iff.mp h
  obtain ⟨icsUnits, -, h⟩ := bind_eq_ok_iff.mp h
  obtain ⟨icsInput, hics, h⟩ := bind_eq_ok_iff.mp h
  obtain ⟨icsValue, hvalue, h⟩ := bind_eq_ok_iff.mp h
  obtain ⟨icsTokens, htokens, h⟩ := bind_eq_ok_iff.mp h
  obtain ⟨reserveTokens, hreserveTokens, h⟩ := bind_eq_ok_iff.mp h
  have hreserveInput := scriptInput_of_addScriptUtxoInput hreserve
  have hicsInput := scriptInput_of_addScriptUtxoInput hics
  let token := previousReserve.datum.immutableSettings.token
  let released : Assets := AList.singleton token.assetName.toList
    (BigNum.saturatingAdd amountToTransfer (icsUtxo.getAssetAmount token))
  let outputs : List TransactionOutput :=
    [⟨scripts.icsAddress, some (TokenTransferDatum.toPlutusData .reserveTransfer),
        icsTokens.insert token.policyId released⟩,
      ⟨scripts.reserveAddress,
        some (previousReserve.datum.afterWithdrawal amountToTransfer).toPlutusData,
        reserveTokens.withAssetAmount token left⟩]
  refine ⟨script, outputs, cumulative.toNat, funext fun costs' => ?_⟩
  simp only [reserveReleaseTx, releaseWith, hcumulative, hleft, hscript, ok_bind,
    addScriptUtxoInput, hreserveInput, hicsInput, hvalue, htokens, hreserveTokens]
  rfl

variable {script : PlutusScript} {outputs : List TransactionOutput} {amount : ℤ} {costs : Costs}
  {tx : BalancedTransaction} {reserveUtxo : OgmiosUtxo}
  {mints : AList fun _ : ScriptHash => ExUnits} {spends : AList fun _ : ℕ => ExUnits}

theorem exists_releaseSpendCosts (hlength : spends.entries.length = 2) :
    ∃ lower higher, releaseSpendCosts (.costs mints spends) = .ok [lower, higher] ∧
      lower.orderKey ≤ higher.orderKey ∧ [lower, higher].Perm (spends.entries.map (·.2)) := by
  have hfirst := Costs.getSpend_spendIndices mints (by omega : 0 < spends.entries.length)
  have hsecond := Costs.getSpend_spendIndices mints (by omega : 1 < spends.entries.length)
  obtain ⟨e₀, e₁, hentries⟩ := List.length_eq_two.mp hlength
  simp only [hentries, List.getElem_cons_zero, List.getElem_cons_succ] at hfirst hsecond
  rw [releaseSpendCosts, hsecond, ok_bind, hfirst, ok_bind, hentries]
  by_cases hle : e₁.2.orderKey ≤ e₀.2.orderKey
  · exact ⟨e₁.2, e₀.2, by simp [hle], hle, List.Perm.swap _ _ _⟩
  · exact ⟨e₀.2, e₁.2, by simp [hle], le_of_not_ge hle, List.Perm.refl _⟩

theorem exists_build_of_releaseWith
    (h : releaseWith lib ctx scripts reserveUtxo icsUtxo script outputs amount
      costs = .ok tx) :
    ∃ lower higher mintUnits builder added change,
      (∀ spendCosts, releaseSpendCosts costs = .ok spendCosts →
        spendCosts[0]? = some lower ∧ spendCosts[1]? = some higher) ∧
      builder.scriptInputs =
        [⟨reserveUtxo, scripts.reserveValidator.scriptHash,
            ReserveRedeemer.toPlutusData .releaseFromReserve, higher⟩,
          ⟨icsUtxo, scripts.icsValidator.scriptHash, .integer 0, lower⟩] ∧
      builder.mint = [⟨script.scriptHash, amount, some (unitPlutusData, mintUnits)⟩] ∧
      BuiltFrom builder ctx tx added change := by
  obtain ⟨mintUnits, -, h⟩ := bind_eq_ok_iff.mp h
  obtain ⟨spendCosts, hspendCosts, h⟩ := bind_eq_ok_iff.mp h
  obtain ⟨higher, hhigher, h⟩ := bind_eq_ok_iff.mp h
  obtain ⟨lower, hlower, h⟩ := bind_eq_ok_iff.mp h
  obtain ⟨added, change, hbuilt⟩ := exists_builtFrom h
  refine ⟨lower, higher, mintUnits, _, added, change, fun spendCosts' h' => ?_, rfl, rfl, hbuilt⟩
  rw [mapError_eq_ok_iff, h', Except.ok.injEq] at hspendCosts
  rw [hspendCosts]
  exact ⟨orElse_eq_ok_iff.mp hlower, orElse_eq_ok_iff.mp hhigher⟩

theorem exists_releaseWith_costs (hscript : script.scriptHash ∈ mints)
    (hlength : spends.entries.length = 2)
    (hbalances : Balances (releaseWith lib ctx scripts reserveUtxo icsUtxo script outputs amount
      (.costs mints spends))) :
    ∃ tx, releaseWith lib ctx scripts reserveUtxo icsUtxo script outputs
      amount (.costs mints spends) = .ok tx := by
  obtain ⟨mintUnits, hunits⟩ : ∃ mintUnits, Costs.getMint script (.costs mints spends) =
      .ok mintUnits := Costs.exists_getMint hscript
  obtain ⟨lower, higher, hcosts⟩ : ∃ lower higher,
      releaseSpendCosts (.costs mints spends) = .ok [lower, higher] := by
    obtain ⟨lower, higher, hcosts, -⟩ := exists_releaseSpendCosts hlength
    exact ⟨lower, higher, hcosts⟩
  rw [releaseWith, hunits, mapError_ok, ok_bind, hcosts, mapError_ok, ok_bind] at hbalances ⊢
  exact Balances.exists_ok hbalances

theorem ExUnits.Covers.refl (units : ExUnits) : units.Covers units :=
  ⟨UInt64.le_refl _, UInt64.le_refl _⟩

theorem ExUnits.Covers.orderKey_le {a b : ExUnits} (h : a.Covers b) : b.orderKey ≤ a.orderKey := by
  refine Prod.Lex.le_iff.mpr ?_
  rcases (UInt64.le_iff_toNat_le.mp h.1).lt_or_eq with hlt | heq
  · exact .inl hlt
  · exact .inr ⟨heq, UInt64.le_iff_toNat_le.mp h.2⟩

theorem ExUnits.orderKey_injective : Function.Injective orderKey := by
  rintro ⟨mem, steps⟩ ⟨mem', steps'⟩ h
  obtain ⟨hmem, hsteps⟩ : mem.toNat = mem'.toNat ∧ steps.toNat = steps'.toNat :=
    Prod.mk.inj (toLex.injective h)
  rw [UInt64.toNat_inj.mp hmem, UInt64.toNat_inj.mp hsteps]

theorem eq_or_eq_of_pair_perm {α : Type} {a b c d : α} (h : [a, b].Perm [c, d]) :
    (a = c ∧ b = d) ∨ (a = d ∧ b = c) := by
  rcases List.mem_pair.mp (h.mem_iff.mp List.mem_cons_self) with rfl | rfl
  · exact .inl ⟨rfl, List.singleton_perm_singleton.mp (List.perm_cons a |>.mp h)⟩
  · have hswap := h.trans (List.Perm.swap a c [])
    exact .inr ⟨rfl, List.singleton_perm_singleton.mp (List.perm_cons a |>.mp hswap)⟩

/-- The script inputs are the two outputs, whatever the costs. -/
theorem releaseWith_reports {client : Client} (hclient : client.Evaluates)
    (hne : reserveUtxo.utxoId ≠ icsUtxo.utxoId)
    (h : releaseWith lib ctx scripts reserveUtxo icsUtxo script outputs amount
      costs = .ok tx) (order : IterationOrder) :
    ∃ mints spends reserveCost icsCost,
      Costs.fromOgmios client order tx = .ok (.costs mints spends) ∧ script.scriptHash ∈ mints ∧
        client.costOf tx reserveUtxo.utxoId = some reserveCost ∧
        client.costOf tx icsUtxo.utxoId = some icsCost ∧
        (spends.entries.map (·.2)).Perm [reserveCost, icsCost] := by
  obtain ⟨lower, higher, mintUnits, builder, added, change, -, hinputs, hmint, hbuilt⟩ :=
    exists_build_of_releaseWith h
  have hids : builder.scriptIds = [reserveUtxo.utxoId, icsUtxo.utxoId] := by
    rw [TransactionBuilder.scriptIds, hinputs]
    rfl
  have hindices : tx.redeemers.map (·.index) =
      [tx.inputs.idxOf reserveUtxo.utxoId, tx.inputs.idxOf icsUtxo.utxoId] := by
    rw [hbuilt.tx_eq, builder.build_redeemers_index, hids]
    rfl
  have hnodup : (tx.redeemers.map (·.index)).Nodup := by
    rw [hbuilt.tx_eq]
    exact builder.build_redeemers_nodup added change (by simpa [hids] using hne)
  obtain ⟨mints, spends, hcosts, hreports⟩ := Costs.exists_fromOgmios hclient order hnodup
  have hkeys := hreports.keys
  rw [hindices] at hkeys
  have hcost (index : ℕ) (hindex : index ∈ [tx.inputs.idxOf reserveUtxo.utxoId,
      tx.inputs.idxOf icsUtxo.utxoId]) :
      spends.lookup index = some ((client.reportedCost tx index).getD zeroExUnits) := by
    have hmem : index ∈ spends := AList.mem_keys.mpr (hkeys.mem_iff.mpr hindex)
    obtain ⟨cost, hcost⟩ := Option.isSome_iff_exists.mp (AList.lookup_isSome.mpr hmem)
    rw [hcost, ← hreports.lookup, hcost]
    rfl
  refine ⟨mints, spends, _, _, hcosts, ?_, ?_, ?_, Costs.values_perm hkeys hcost⟩
  · exact hbuilt.mem_mints hreports (by rw [hmint]; exact List.mem_cons_self) rfl
  · exact (hreports.lookup _).symm.trans (hcost _ List.mem_cons_self)
  · exact (hreports.lookup _).symm.trans (hcost _ (.tail _ List.mem_cons_self))

theorem releaseWith_granted {reserveCost icsCost : ExUnits}
    (hne : reserveUtxo.utxoId ≠ icsUtxo.utxoId)
    (hperm : (spends.entries.map (·.2)).Perm [reserveCost, icsCost])
    (h : releaseWith lib ctx scripts reserveUtxo icsUtxo script outputs amount
      (.costs mints spends) = .ok tx) :
    ∃ lower higher, tx.exUnitsOf reserveUtxo.utxoId = some higher ∧
      tx.exUnitsOf icsUtxo.utxoId = some lower ∧ lower.orderKey ≤ higher.orderKey ∧
      [lower, higher].Perm [reserveCost, icsCost] := by
  obtain ⟨lower, higher, hcosts, hle, hvalues⟩ :=
    exists_releaseSpendCosts (by simpa using hperm.length_eq)
  obtain ⟨lower', higher', mintUnits, builder, added, change, hspend, hinputs, hmint, hbuilt⟩ :=
    exists_build_of_releaseWith h
  obtain ⟨hlower, hhigher⟩ := hspend _ hcosts
  obtain rfl : lower = lower' := Option.some.inj hlower
  obtain rfl : higher = higher' := Option.some.inj hhigher
  have hids : builder.scriptIds.Nodup := by
    rw [TransactionBuilder.scriptIds, hinputs]
    simpa using hne
  rw [hbuilt.tx_eq]
  refine ⟨lower, higher, ?_, ?_, hle, hvalues.trans hperm⟩
  · exact exUnitsOf_build added change hids (by rw [hinputs]; exact List.mem_cons_self)
  · exact exUnitsOf_build added change hids (by rw [hinputs]; exact .tail _ List.mem_cons_self)

/-- The illiquid supply is given the lower cost. -/
theorem releaseWith_costsReach_iff {client : Client} {first : IterationOrder}
    {evaluated : BalancedTransaction} (hclient : client.Evaluates)
    (hne : reserveUtxo.utxoId ≠ icsUtxo.utxoId)
    (hevaluated : Costs.LastEvaluated (releaseWith lib ctx scripts reserveUtxo icsUtxo script
      outputs amount) client first evaluated)
    (hbalances : ∀ second, Balances (Costs.calculateCosts (releaseWith lib ctx scripts reserveUtxo
      icsUtxo script outputs amount) client first second)) :
    CostsReach (releaseWith lib ctx scripts reserveUtxo icsUtxo script outputs amount) client
        first evaluated [reserveUtxo, icsUtxo] ↔
      ∀ reserveCost ∈ client.costOf evaluated reserveUtxo.utxoId,
        ∀ icsCost ∈ client.costOf evaluated icsUtxo.utxoId,
          icsCost.orderKey ≤ reserveCost.orderKey := by
  obtain ⟨costs, hmade⟩ : ∃ costs, releaseWith lib ctx scripts reserveUtxo
      icsUtxo script outputs amount costs = .ok evaluated := by
    obtain ⟨_, costs, -, -, hmade⟩ := hevaluated
    exact ⟨costs, hmade⟩
  rw [costsReach_iff hevaluated]
  constructor
  · intro hreach reserveCost hreserveCost icsCost hicsCost
    obtain ⟨mints, spends, reserveCost', icsCost', hcosts, hscript, hreserve, hics, hperm⟩ :=
      releaseWith_reports hclient hne hmade first
    obtain rfl : reserveCost' = reserveCost := Option.some.inj (hreserve.symm.trans hreserveCost)
    obtain rfl : icsCost' = icsCost := Option.some.inj (hics.symm.trans hicsCost)
    obtain ⟨tx, htx⟩ := exists_releaseWith_costs hscript (by simpa using hperm.length_eq)
      (hevaluated.balances hcosts (hbalances first))
    obtain ⟨lower, higher, -, hlower, hle, hpair⟩ := releaseWith_granted hne hperm htx
    obtain ⟨granted, hgranted, hcovers⟩ :=
      hreach first _ tx hcosts htx icsUtxo (by simp) icsCost' hics
    obtain rfl : lower = granted := Option.some.inj (hlower.symm.trans hgranted)
    rcases eq_or_eq_of_pair_perm hpair with ⟨rfl, rfl⟩ | ⟨rfl, rfl⟩
    · exact hcovers.orderKey_le
    · exact hle
  · intro hle second costs' tx hcosts' htx
    obtain ⟨mints, spends, reserveCost, icsCost, hcosts, hscript, hreserve, hics, hperm⟩ :=
      releaseWith_reports hclient hne hmade second
    obtain rfl := Except.ok.inj (hcosts'.symm.trans hcosts)
    obtain ⟨lower, higher, hhigher, hlower, hle', hpair⟩ := releaseWith_granted hne hperm htx
    obtain ⟨rfl, rfl⟩ : lower = icsCost ∧ higher = reserveCost := by
      rcases eq_or_eq_of_pair_perm hpair with ⟨rfl, rfl⟩ | ⟨rfl, rfl⟩
      · have heq := ExUnits.orderKey_injective (le_antisymm hle' (hle _ hreserve _ hics))
        exact ⟨heq, heq.symm⟩
      · exact ⟨rfl, rfl⟩
    intro utxo hutxo reported hreported
    rcases List.mem_pair.mp hutxo with rfl | rfl
    · obtain rfl := Option.some.inj (hreserve.symm.trans hreported)
      exact ⟨_, hhigher, .refl _⟩
    · obtain rfl := Option.some.inj (hics.symm.trans hreported)
      exact ⟨_, hlower, .refl _⟩

theorem release_costsReach_iff {client : Client} {first : IterationOrder}
    {evaluated : BalancedTransaction} (hclient : client.Evaluates)
    (hne : previousReserve.utxo.utxoId ≠ icsUtxo.utxoId)
    (hevaluated : Costs.LastEvaluated (reserveReleaseTx lib ctx scripts previousReserve icsUtxo
      vFunction amountToTransfer) client first evaluated)
    (hbalances : ∀ second, Balances (Costs.calculateCosts (reserveReleaseTx lib ctx scripts
      previousReserve icsUtxo vFunction amountToTransfer) client first second)) :
    CostsReach (reserveReleaseTx lib ctx scripts previousReserve icsUtxo vFunction
        amountToTransfer) client first evaluated [previousReserve.utxo, icsUtxo] ↔
      ∀ reserveCost ∈ client.costOf evaluated previousReserve.utxo.utxoId,
        ∀ icsCost ∈ client.costOf evaluated icsUtxo.utxoId,
          icsCost.orderKey ≤ reserveCost.orderKey := by
  obtain ⟨script, outputs, amount, hrelease⟩ : ∃ script outputs amount,
      reserveReleaseTx lib ctx scripts previousReserve icsUtxo vFunction amountToTransfer =
        releaseWith lib ctx scripts previousReserve.utxo icsUtxo script outputs amount := by
    obtain ⟨_, costs, -, -, hmade⟩ := hevaluated
    exact exists_releaseWith hmade
  rw [hrelease] at hevaluated hbalances ⊢
  exact releaseWith_costsReach_iff hclient hne hevaluated hbalances

end Release

/-! ## All transactions -/

/-- Updates and removals grant each entry what was reported for it exactly when all entries cost
the same, and a release does so exactly when the illiquid supply costs no more than the reserve. -/
theorem costs_reach_inputs_iff {client : Client} (hclient : client.Evaluates)
    (lib : SerializationLib) (ctx : TransactionContext) (first : IterationOrder) :
    (∀ nativeScriptHash validator policy key value governanceData utxos evaluated,
      (utxos.map (·.utxoId)).Nodup →
      Costs.LastEvaluated (updateKeyValueTx lib nativeScriptHash validator policy key value utxos
        governanceData · ctx) client first evaluated →
      (∀ second, Balances (Costs.calculateCosts (updateKeyValueTx lib nativeScriptHash validator
        policy key value utxos governanceData · ctx) client first second)) →
      (CostsReach (updateKeyValueTx lib nativeScriptHash validator policy key value utxos
          governanceData · ctx) client first evaluated utxos ↔
        ∀ a ∈ utxos, ∀ b ∈ utxos,
          client.costOf evaluated a.utxoId = client.costOf evaluated b.utxoId)) ∧
    (∀ nativeScriptHash validator policy governanceData utxos evaluated,
      (utxos.map (·.utxoId)).Nodup →
      Costs.LastEvaluated (removeKeyValueTx lib nativeScriptHash validator policy utxos
        governanceData · ctx) client first evaluated →
      (∀ second, Balances (Costs.calculateCosts (removeKeyValueTx lib nativeScriptHash validator
        policy utxos governanceData · ctx) client first second)) →
      (CostsReach (removeKeyValueTx lib nativeScriptHash validator policy utxos governanceData ·
          ctx) client first evaluated utxos ↔
        ∀ a ∈ utxos, ∀ b ∈ utxos,
          client.costOf evaluated a.utxoId = client.costOf evaluated b.utxoId)) ∧
    (∀ scripts previousReserve icsUtxo vFunction amountToTransfer evaluated,
      previousReserve.utxo.utxoId ≠ icsUtxo.utxoId →
      Costs.LastEvaluated (reserveReleaseTx lib ctx scripts previousReserve icsUtxo vFunction
        amountToTransfer) client first evaluated →
      (∀ second, Balances (Costs.calculateCosts (reserveReleaseTx lib ctx scripts previousReserve
        icsUtxo vFunction amountToTransfer) client first second)) →
      (CostsReach (reserveReleaseTx lib ctx scripts previousReserve icsUtxo vFunction
          amountToTransfer) client first evaluated [previousReserve.utxo, icsUtxo] ↔
        ∀ reserveCost ∈ client.costOf evaluated previousReserve.utxo.utxoId,
          ∀ icsCost ∈ client.costOf evaluated icsUtxo.utxoId,
            icsCost.orderKey ≤ reserveCost.orderKey)) := by
  refine ⟨?_, ?_, ?_⟩
  · intro nativeScriptHash validator policy key value governanceData utxos evaluated hnodup
    exact updateKeyValueTx_spendsInOrder.costsReach_iff hclient hnodup
  · intro nativeScriptHash validator policy governanceData utxos evaluated hnodup
    exact removeKeyValueTx_spendsInOrder.costsReach_iff hclient hnodup
  · intro scripts previousReserve icsUtxo vFunction amountToTransfer evaluated
    exact release_costsReach_iff hclient

/-! ## Two entries with one key -/

def samplePolicy : PlutusScript := ⟨.filled 28 2, "policy"⟩

/-- The payment key is the only authority. -/
def sampleGovernance : GovernanceData where
  policy := .atLeastNNativeScript ⟨1, [sampleContext.paymentKeyHash]⟩
  utxo := ⟨⟨.filled 32 8, 0⟩, "version oracle", ⟨2000000, ∅⟩, none⟩

/-- An output at the validator with a token of the map. -/
def entryUtxo (byte : UInt8) : OgmiosUtxo where
  utxoId := ⟨.filled 32 byte, 0⟩
  address := sampleValidator.address
  value := ⟨2000000, AList.singleton samplePolicy.scriptHash (AList.singleton [] 1)⟩
  datum := some [byte]

def sampleUpdate (costs : Costs) : Except BuildError BalancedTransaction :=
  updateKeyValueTx sampleLib (fun _ => .filled 28 9) sampleValidator samplePolicy "key" [1]
    [entryUtxo 1, entryUtxo 2] sampleGovernance costs sampleContext

/-- Whatever the order of the two costs, the update is balanced. -/
theorem sampleUpdate_balances (second : IterationOrder) :
    Balances (Costs.calculateCosts sampleUpdate sampleClient sampleOrder second) := by
  let mints : AList fun _ : ScriptHash => ExUnits :=
    (AList.singleton (.filled 28 2) ⟨5, 7⟩).insert (.filled 28 9) ⟨5, 7⟩
  let spends (index other : ℕ) : AList fun _ : ℕ => ExUnits :=
    (AList.singleton index ⟨5, 7⟩).insert other ⟨5, 7⟩
  have hcall : Costs.calculateCosts sampleUpdate sampleClient sampleOrder second =
      sampleUpdate (.costs mints (second.arrange (spends 0 1))) := rfl
  have hperm := second.perm (spends 0 1)
  obtain ⟨a, b, hentries⟩ := List.length_eq_two.mp hperm.length_eq
  rw [hentries] at hperm
  rw [hcall]
  rcases eq_or_eq_of_pair_perm hperm with ⟨rfl, rfl⟩ | ⟨rfl, rfl⟩
  · rw [(AList.ext hentries : second.arrange (spends 0 1) = spends 0 1)]
    exact .of_ok rfl
  · rw [(AList.ext hentries : second.arrange (spends 0 1) = spends 1 0)]
    exact .of_ok rfl

/-- Entries of the same cost are granted it. -/
theorem costs_reach_inputs_iff_even :
    ∃ evaluated, Costs.LastEvaluated sampleUpdate sampleClient sampleOrder evaluated ∧
      CostsReach sampleUpdate sampleClient sampleOrder evaluated [entryUtxo 1, entryUtxo 2] := by
  have hupdate := (costs_reach_inputs_iff sampleClient_evaluates sampleLib sampleContext
    sampleOrder).1
  refine ⟨_, ⟨_, _, rfl, rfl, rfl⟩,
    (hupdate _ _ _ _ _ _ _ _ ?_ ⟨_, _, rfl, rfl, rfl⟩ sampleUpdate_balances).mpr ?_⟩
  · decide +kernel
  · decide +kernel

/-- An input needs the more memory the later it is. -/
def unevenClient : Client := clientWithCosts fun index => .ofNat (index + 1)

/-- The second entry needs two units of memory and is given one. -/
theorem costs_are_swapped :
    unevenClient.Evaluates ∧
      ∃ evaluated tx, Costs.LastEvaluated sampleUpdate unevenClient sampleOrder evaluated ∧
        Costs.calculateCosts sampleUpdate unevenClient sampleOrder sampleOrder = .ok tx ∧
        unevenClient.costOf evaluated (entryUtxo 2).utxoId = some ⟨2, 7⟩ ∧
        tx.exUnitsOf (entryUtxo 2).utxoId = some ⟨1, 7⟩ :=
  ⟨clientWithCosts_evaluates _, _, _, ⟨_, _, rfl, rfl, rfl⟩, rfl,
    by decide +kernel, by decide +kernel⟩

end PartnerChains.SmartContracts
