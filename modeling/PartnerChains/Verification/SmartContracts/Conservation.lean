import PartnerChains.Algorithm.ReserveRelease
import PartnerChains.Verification.SmartContracts.Building
import PartnerChains.Verification.SmartContracts.Values

/-!
# Tokens of the validators that the reserve transactions spend

A release writes the assets of the reserve token's policy anew in the illiquid supply, and a
deposit writes the whole value of the reserve anew. Both keep what they do not write.
-/

namespace PartnerChains.SmartContracts

open Fallible

/-! ## What is asked of a transaction -/

/-- The amount of one token changes by `delta` and that of no other token changes. -/
structure ChangesBy (token : AssetId) (before after : MultiAsset) (delta : ℤ) : Prop where
  token_eq : ((after.getAsset token.policyId token.assetName.toList).toNat : ℤ) =
    (before.getAsset token.policyId token.assetName.toList).toNat + delta
  other_eq : ∀ policyId assetName,
    ¬ (policyId = token.policyId ∧ assetName = token.assetName.toList) →
      after.getAsset policyId assetName = before.getAsset policyId assetName

/-- Besides outputs of the payment key, the reserve UTXO and the illiquid supply UTXO are spent.
Both come back with the amount moved from one to the other, and the rest is change. -/
def ReleaseConserves (ctx : TransactionContext) (scripts : ScriptsData) (reserve : ReserveUtxo)
    (icsUtxo : OgmiosUtxo) (amount : UInt64) (tx : BalancedTransaction) : Prop :=
  ∃ (icsOutput reserveOutput : TransactionOutput) (change : List TransactionOutput)
    (added : List OgmiosUtxo),
    added ⊆ ctx.paymentKeyUtxos ∧
    (∀ id, id ∈ tx.inputs ↔
      id ∈ [reserve.utxo.utxoId, icsUtxo.utxoId] ∨ id ∈ added.map (·.utxoId)) ∧
    tx.outputs = icsOutput :: reserveOutput :: change ∧
    (∀ output ∈ change, output.address = ctx.changeAddress) ∧
    icsOutput.address = scripts.icsAddress ∧ reserveOutput.address = scripts.reserveAddress ∧
    ChangesBy reserve.datum.immutableSettings.token reserve.utxo.value.nativeTokens
      reserveOutput.multiasset (-amount.toNat) ∧
    ChangesBy reserve.datum.immutableSettings.token icsUtxo.value.nativeTokens
      icsOutput.multiasset amount.toNat

def DepositConserves (scripts : ScriptsData) (reserve : ReserveUtxo) (amount : UInt64)
    (tx : Transaction) : Prop :=
  ∃ output : TransactionOutput, tx.inputs = [reserve.utxo] ∧ tx.outputs = [output] ∧
    output.address = scripts.reserveAddress ∧
    ChangesBy reserve.datum.immutableSettings.token reserve.utxo.value.nativeTokens
      output.multiasset amount.toNat

/-- The illiquid supply UTXO has no other token of the reserve token's policy. -/
def ReleaseKeepsTokens (reserve : ReserveUtxo) (icsUtxo : OgmiosUtxo) : Prop :=
  ∀ assetName, assetName ≠ reserve.datum.immutableSettings.token.assetName.toList →
    icsUtxo.value.nativeTokens.getAsset
      reserve.datum.immutableSettings.token.policyId assetName = 0

/-- The reserve UTXO has only the reserve token and the auth token, which are two different
tokens, and room for the amount. -/
def DepositKeepsTokens (scripts : ScriptsData) (reserve : ReserveUtxo) (amount : UInt64) : Prop :=
  (reserve.utxo.getAssetAmount reserve.datum.immutableSettings.token).toNat + amount.toNat <
      2 ^ 64 ∧
    reserve.datum.immutableSettings.token ≠ emptyNameAsset scripts.reserveAuthPolicy ∧
    ∀ policyId assetName,
      reserve.utxo.value.nativeTokens.getAsset policyId assetName ≠ 0 →
      policyId = reserve.datum.immutableSettings.token.policyId ∧
          assetName = reserve.datum.immutableSettings.token.assetName.toList ∨
        policyId = scripts.reserveAuthPolicy ∧ assetName = []

/-! ## Releases -/

section Release

variable {lib : SerializationLib} {ctx : TransactionContext} {scripts : ScriptsData}
  {reserve : ReserveUtxo} {icsUtxo : OgmiosUtxo} {vFunction : Option PlutusScript}
  {amount : UInt64} {costs : Costs} {tx : BalancedTransaction}

theorem scriptInput_eq_ok {utxo input : OgmiosUtxo} (h : scriptInput utxo = .ok input) :
    input = utxo := by
  obtain ⟨_, -, h⟩ := bind_eq_ok_iff.mp h
  exact (Except.ok.inj h).symm

theorem addScriptUtxoInput_utxo {utxo : OgmiosUtxo} {script : PlutusScript} {data : PlutusData}
    {exUnits : ExUnits} {input : ScriptInput}
    (h : addScriptUtxoInput utxo script data exUnits = .ok input) : input.utxo = utxo := by
  obtain ⟨utxo', hutxo, h⟩ := bind_eq_ok_iff.mp h
  rw [← Except.ok.inj h]
  exact scriptInput_eq_ok hutxo

/-- What a release is built from: the two outputs, and the tokens of both with the amount moved. -/
structure ReleaseBuilder (scripts : ScriptsData) (reserve : ReserveUtxo) (icsUtxo : OgmiosUtxo)
    (amount : UInt64) (builder : TransactionBuilder) (leftInReserve : BigNum)
    (icsTokens reserveTokens : MultiAsset) : Prop where
  spent : builder.scriptInputs.map (·.utxo) = [reserve.utxo, icsUtxo]
  regular : builder.regularInputs = []
  left : leftInReserve.toNat + amount.toNat =
    (reserve.utxo.getAssetAmount reserve.datum.immutableSettings.token).toNat
  ics_eq : ∀ policyId assetName, icsTokens.getAsset policyId assetName =
    icsUtxo.value.nativeTokens.getAsset policyId assetName
  reserve_eq : ∀ policyId assetName, reserveTokens.getAsset policyId assetName =
    reserve.utxo.value.nativeTokens.getAsset policyId assetName
  outputs : builder.outputs =
    [⟨scripts.icsAddress, some (TokenTransferDatum.toPlutusData .reserveTransfer),
        icsTokens.insert reserve.datum.immutableSettings.token.policyId
          (AList.singleton reserve.datum.immutableSettings.token.assetName.toList
            (BigNum.saturatingAdd amount
              (icsUtxo.getAssetAmount reserve.datum.immutableSettings.token)))⟩,
      ⟨scripts.reserveAddress, some (reserve.datum.afterWithdrawal amount).toPlutusData,
        reserveTokens.withAssetAmount reserve.datum.immutableSettings.token leftInReserve⟩]

theorem exists_releaseBuilder
    (h : reserveReleaseTx lib ctx scripts reserve icsUtxo vFunction amount costs = .ok tx) :
    ∃ builder leftInReserve icsTokens reserveTokens,
      ReleaseBuilder scripts reserve icsUtxo amount builder leftInReserve icsTokens
        reserveTokens ∧ balanceUpdateAndBuild lib builder ctx = .ok tx := by
  obtain ⟨cumulative, -, h⟩ := bind_eq_ok_iff.mp h
  obtain ⟨leftInReserve, hleft, h⟩ := bind_eq_ok_iff.mp h
  obtain ⟨policy, -, h⟩ := bind_eq_ok_iff.mp h
  obtain ⟨mintUnits, -, h⟩ := bind_eq_ok_iff.mp h
  obtain ⟨spendCosts, -, h⟩ := bind_eq_ok_iff.mp h
  obtain ⟨reserveUnits, -, h⟩ := bind_eq_ok_iff.mp h
  obtain ⟨reserveInput, hreserveInput, h⟩ := bind_eq_ok_iff.mp h
  obtain ⟨icsUnits, -, h⟩ := bind_eq_ok_iff.mp h
  obtain ⟨icsInput, hicsInput, h⟩ := bind_eq_ok_iff.mp h
  obtain ⟨icsValue, hicsValue, h⟩ := bind_eq_ok_iff.mp h
  obtain ⟨icsTokens, hicsTokens, h⟩ := bind_eq_ok_iff.mp h
  obtain ⟨reserveTokens, hreserveTokens, h⟩ := bind_eq_ok_iff.mp h
  refine ⟨_, leftInReserve, icsTokens, reserveTokens, {
    spent := ?_
    regular := rfl
    left := checkedSub_eq_some (orElse_eq_ok_iff.mp hleft)
    ics_eq := getAsset_of_toCsl (mapError_eq_ok_iff.mp hicsValue) (orElse_eq_ok_iff.mp hicsTokens)
    reserve_eq := getAsset_nativeTokensToCsl (mapError_eq_ok_iff.mp hreserveTokens)
    outputs := rfl }, h⟩
  simp [addScriptUtxoInput_utxo hreserveInput, addScriptUtxoInput_utxo hicsInput]

section Builder

variable {builder : TransactionBuilder} {leftInReserve : BigNum}
  {icsTokens reserveTokens : MultiAsset}

theorem ReleaseBuilder.scriptIds_eq
    (h : ReleaseBuilder scripts reserve icsUtxo amount builder leftInReserve icsTokens
      reserveTokens) : builder.scriptIds = [reserve.utxo.utxoId, icsUtxo.utxoId] := by
  have hids := congrArg (List.map (·.utxoId)) h.spent
  rwa [List.map_map] at hids

/-- A release that was balanced has room in the illiquid supply: the reserve has the amount, and
the library has added up the tokens of both. -/
theorem ReleaseBuilder.fits (hlib : lib.ChecksSums)
    (h : ReleaseBuilder scripts reserve icsUtxo amount builder leftInReserve icsTokens
      reserveTokens) (htx : balanceUpdateAndBuild lib builder ctx = .ok tx) :
    (icsUtxo.getAssetAmount reserve.datum.immutableSettings.token).toNat + amount.toNat <
      2 ^ 64 := by
  have hsum := hlib.sum_lt htx reserve.datum.immutableSettings.token.policyId
    reserve.datum.immutableSettings.token.assetName.toList
  have hmap := congrArg (List.map fun utxo : OgmiosUtxo =>
    (utxo.getAssetAmount reserve.datum.immutableSettings.token).toNat) h.spent
  rw [List.map_map] at hmap
  have htotal := (congrArg List.sum hmap).symm.trans_lt hsum
  have hleft := h.left
  simp only [List.map_cons, List.map_nil, List.sum_cons, List.sum_nil] at htotal
  omega

/-- The tokens of the illiquid supply after a release with room for the amount. -/
theorem ReleaseBuilder.icsAmount
    (hfits : (icsUtxo.getAssetAmount reserve.datum.immutableSettings.token).toNat +
      amount.toNat < 2 ^ 64) :
    (BigNum.saturatingAdd amount
      (icsUtxo.getAssetAmount reserve.datum.immutableSettings.token)).toNat =
      (icsUtxo.getAssetAmount reserve.datum.immutableSettings.token).toNat + amount.toNat := by
  rw [saturatingAdd_toNat]
  omega

/-- One asset is all that a policy is left with. -/
theorem getAsset_insert_singleton (ma : MultiAsset) (token : AssetId) (value : BigNum)
    (policyId : PolicyId) (assetName : AssetName) :
    MultiAsset.getAsset (ma.insert token.policyId (AList.singleton token.assetName.toList value))
        policyId assetName =
      if policyId = token.policyId then
        if assetName = token.assetName.toList then value else 0
      else ma.getAsset policyId assetName := by
  rw [MultiAsset.getAsset_insert]
  by_cases hname : assetName = token.assetName.toList
  · subst hname
    simp [AList.lookup, AList.singleton]
  · have hnone : (AList.singleton token.assetName.toList value : Assets).lookup assetName = none :=
      AList.lookup_eq_none.mpr (by simpa [AList.mem_keys] using hname)
    simp [hname, hnone]

/-- The new value of the illiquid supply is right exactly when nothing else of the policy was
there. -/
theorem ReleaseBuilder.changesBy_iff (hlib : lib.ChecksSums)
    (h : ReleaseBuilder scripts reserve icsUtxo amount builder leftInReserve icsTokens
      reserveTokens) (htx : balanceUpdateAndBuild lib builder ctx = .ok tx) :
    ChangesBy reserve.datum.immutableSettings.token icsUtxo.value.nativeTokens
        (icsTokens.insert reserve.datum.immutableSettings.token.policyId
          (AList.singleton reserve.datum.immutableSettings.token.assetName.toList
            (BigNum.saturatingAdd amount
              (icsUtxo.getAssetAmount reserve.datum.immutableSettings.token)))) amount.toNat ↔
      ReleaseKeepsTokens reserve icsUtxo := by
  have hsum := ReleaseBuilder.icsAmount (h.fits hlib htx)
  have hics := h.ics_eq
  unfold ReleaseKeepsTokens
  set token := reserve.datum.immutableSettings.token
  constructor
  · intro hchange assetName hname
    have heq := hchange.other_eq token.policyId assetName (fun h => hname h.2)
    rw [getAsset_insert_singleton, if_pos rfl, if_neg hname] at heq
    exact heq.symm
  · intro hkeeps
    refine ⟨?_, fun policyId assetName hother => ?_⟩
    · rw [getAsset_insert_singleton, if_pos rfl, if_pos rfl, hsum, OgmiosUtxo.getAssetAmount]
      exact Nat.cast_add _ _
    · rw [getAsset_insert_singleton]
      split_ifs with hpolicy hname
      · exact absurd ⟨hpolicy, hname⟩ hother
      · rw [hpolicy]
        exact (hkeeps assetName hname).symm
      · exact hics policyId assetName

end Builder

theorem releaseConserves_iff (hlib : lib.ChecksSums)
    (h : reserveReleaseTx lib ctx scripts reserve icsUtxo vFunction amount costs = .ok tx) :
    ReleaseConserves ctx scripts reserve icsUtxo amount tx ↔
      ReleaseKeepsTokens reserve icsUtxo := by
  obtain ⟨builder, leftInReserve, icsTokens, reserveTokens, hbuilder, htx⟩ :=
    exists_releaseBuilder h
  obtain ⟨added, change, hbuilt⟩ := exists_builtFrom htx
  have houtputs : tx.outputs = builder.outputs ++ change := by rw [hbuilt.tx_eq]; rfl
  rw [hbuilder.outputs] at houtputs
  rw [← hbuilder.changesBy_iff hlib htx]
  constructor
  · rintro ⟨icsOutput, reserveOutput, _, _, -, -, hboth, -, -, -, -, hchange⟩
    rw [houtputs] at hboth
    obtain ⟨rfl, -⟩ := List.cons.inj hboth
    exact hchange
  · intro hchange
    refine ⟨_, _, change, added, hbuilt.added_subset, fun id => ?_, houtputs,
      hbuilt.change_address, rfl, rfl, ⟨?_, ?_⟩, hchange⟩
    · rw [hbuilt.tx_eq, TransactionBuilder.mem_build_inputs, hbuilder.scriptIds_eq,
        hbuilder.regular]
      simp
    · have hleft := hbuilder.left
      rw [MultiAsset.getAsset_withAssetAmount, if_pos ⟨rfl, rfl⟩]
      rw [OgmiosUtxo.getAssetAmount] at hleft
      omega
    · intro policyId assetName hother
      rw [MultiAsset.getAsset_withAssetAmount, if_neg hother]
      exact hbuilder.reserve_eq policyId assetName

end Release

/-! ## Deposits -/

section Deposit

variable {fromBytes : ByteString → Option PlutusData} {overflowChecks : Bool}
  {scripts : ScriptsData} {reserve : ReserveUtxo} {amount : UInt64} {tx : Transaction}

theorem depositToReserve_eq_ok
    (h : depositToReserve fromBytes overflowChecks scripts reserve amount = .ok tx) :
    ∃ (total : ℕ) (datum : PlutusData),
      Checked.addWith overflowChecks 64
        (reserve.utxo.getAssetAmount reserve.datum.immutableSettings.token).toNat amount.toNat =
          .ok total ∧
      tx.inputs = [reserve.utxo] ∧
      tx.outputs = [⟨scripts.reserveAddress, some datum,
        (MultiAsset.withAssetAmount ∅ reserve.datum.immutableSettings.token
          (.ofNat total)).withAssetAmount (emptyNameAsset scripts.reserveAuthPolicy) 1⟩] := by
  obtain ⟨total, htotal, h⟩ := bind_eq_ok_iff.mp h
  obtain ⟨output, houtput, h⟩ := bind_eq_ok_iff.mp h
  obtain ⟨input, hinput, h⟩ := bind_eq_ok_iff.mp h
  obtain ⟨datum, -, houtput⟩ := bind_eq_ok_iff.mp houtput
  obtain rfl := scriptInput_eq_ok hinput
  refine ⟨total, datum, mapError_eq_ok_iff.mp htotal, ?_, ?_⟩
  · rw [← Except.ok.inj h]
  · rw [← Except.ok.inj h, ← Except.ok.inj houtput]

/-- What a deposit writes: the reserve token, the auth token, and nothing else. -/
theorem getAsset_depositOutput (token auth : AssetId) (total : BigNum) (policyId : PolicyId)
    (assetName : AssetName) :
    ((MultiAsset.withAssetAmount ∅ token total).withAssetAmount auth 1).getAsset policyId
        assetName =
      if policyId = auth.policyId ∧ assetName = auth.assetName.toList then 1
      else if policyId = token.policyId ∧ assetName = token.assetName.toList then total
      else 0 := by
  rw [MultiAsset.getAsset_withAssetAmount, MultiAsset.getAsset_withAssetAmount,
    MultiAsset.getAsset_empty]

theorem AssetId.ext_iff {a b : AssetId} :
    a = b ↔ a.policyId = b.policyId ∧ a.assetName.toList = b.assetName.toList := by
  constructor
  · rintro rfl
    exact ⟨rfl, rfl⟩
  · intro h
    cases a
    cases b
    exact congrArg₂ AssetId.mk h.1 (BoundedVec.ext h.2)

theorem depositConserves_iff (hamount : 0 < amount)
    (hauth : reserve.utxo.getAssetAmount (emptyNameAsset scripts.reserveAuthPolicy) = 1)
    (h : depositToReserve fromBytes overflowChecks scripts reserve amount = .ok tx) :
    DepositConserves scripts reserve amount tx ↔
      DepositKeepsTokens scripts reserve amount := by
  obtain ⟨total, datum, htotal, hinputs, houtputs⟩ := depositToReserve_eq_ok h
  set token := reserve.datum.immutableSettings.token with htoken
  set auth := emptyNameAsset scripts.reserveAuthPolicy with hauthAsset
  have hpositive : 0 < amount.toNat := UInt64.lt_iff_toNat_lt.mp hamount
  constructor
  · rintro ⟨output, -, hsingle, -, hchange⟩
    obtain rfl : _ = output := by simpa using houtputs.symm.trans hsingle
    have htokenAmount := hchange.token_eq
    rw [getAsset_depositOutput] at htokenAmount
    have hdifferent : token ≠ auth := by
      intro heq
      rw [OgmiosUtxo.getAssetAmount, ← heq] at hauth
      rw [if_pos (AssetId.ext_iff.mp heq), hauth] at htokenAmount
      omega
    rw [if_neg (mt AssetId.ext_iff.mpr hdifferent), if_pos ⟨rfl, rfl⟩] at htokenAmount
    refine ⟨?_, hdifferent, fun policyId assetName hheld => ?_⟩
    · have hbound := (UInt64.ofNat total).toNat_lt
      rw [OgmiosUtxo.getAssetAmount]
      omega
    · by_contra hneither
      obtain ⟨hnotToken, hnotAuth⟩ := not_or.mp hneither
      have hnone := hchange.other_eq policyId assetName hnotToken
      have hnotAuth : ¬ (policyId = auth.policyId ∧ assetName = auth.assetName.toList) := hnotAuth
      rw [getAsset_depositOutput, if_neg hnotAuth, if_neg hnotToken] at hnone
      exact hheld hnone.symm
  · rintro ⟨hfits, hdifferent, honly⟩
    rw [Checked.addWith_of_lt overflowChecks hfits] at htotal
    have hsum : (UInt64.ofNat total).toNat = total := by
      rw [← Except.ok.inj htotal]
      exact UInt64.toNat_ofNat_of_lt hfits
    refine ⟨_, hinputs, houtputs, rfl, ⟨?_, ?_⟩⟩
    · rw [getAsset_depositOutput, if_neg (mt AssetId.ext_iff.mpr hdifferent),
        if_pos ⟨rfl, rfl⟩, hsum, ← Except.ok.inj htotal, OgmiosUtxo.getAssetAmount]
      omega
    · intro policyId assetName hother
      rw [getAsset_depositOutput]
      split_ifs with hisAuth
      · rw [hisAuth.1, hisAuth.2]
        exact hauth.symm
      · by_contra hheld
        rcases honly policyId assetName (Ne.symm hheld) with h | h
        · exact hother h
        · exact hisAuth h

end Deposit

/-! ## Both transactions -/

theorem getAssetAmount_of_getReserveUtxo {fromBytes : ByteString → Option PlutusData}
    {authPolicy : PolicyId} {utxos : List OgmiosUtxo} {reserve : ReserveUtxo}
    (h : getReserveUtxo fromBytes authPolicy utxos = .ok reserve) :
    reserve.utxo.getAssetAmount (emptyNameAsset authPolicy) = 1 := by
  unfold getReserveUtxo at h
  split at h
  · rename_i found hfound
    obtain rfl := Except.ok.inj h
    obtain ⟨utxo, -, hutxo⟩ := List.exists_of_findSome?_eq_some hfound
    unfold asReserveUtxo at hutxo
    split_ifs at hutxo with hamount
    obtain ⟨data, -, hutxo⟩ := Option.bind_eq_some_iff.mp hutxo
    obtain ⟨datum, -, hutxo⟩ := Option.bind_eq_some_iff.mp hutxo
    obtain rfl := Option.some.inj hutxo
    simpa using hamount
  · cases h

/-- A built transaction moves the amount and keeps all other tokens exactly when the spent
UTXOs have nothing else in the parts of their values that are written anew. A deposit also needs
room for the amount. -/
theorem reserve_transactions_conserve_iff {lib : SerializationLib} (hlib : lib.ChecksSums)
    (ctx : TransactionContext) (fromBytes : ByteString → Option PlutusData)
    (overflowChecks : Bool) (scripts : ScriptsData) (reserveUtxos : List OgmiosUtxo)
    (reserve : ReserveUtxo)
    (hreserve : getReserveUtxo fromBytes scripts.reserveAuthPolicy reserveUtxos = .ok reserve)
    (icsUtxo : OgmiosUtxo) (vFunction : Option PlutusScript) (amount : UInt64)
    (hamount : 0 < amount) :
    (∀ costs tx,
      reserveReleaseTx lib ctx scripts reserve icsUtxo vFunction amount costs = .ok tx →
        (ReleaseConserves ctx scripts reserve icsUtxo amount tx ↔
          ReleaseKeepsTokens reserve icsUtxo)) ∧
    ∀ tx, depositToReserve fromBytes overflowChecks scripts reserve amount = .ok tx →
      (DepositConserves scripts reserve amount tx ↔
        DepositKeepsTokens scripts reserve amount) := by
  refine ⟨fun costs tx => releaseConserves_iff hlib, fun tx => ?_⟩
  exact depositConserves_iff hamount (getAssetAmount_of_getReserveUtxo hreserve)

/-! ### A reserve of ten tokens -/

def sampleScripts : ScriptsData where
  icsValidator := ⟨.filled 28 5, "addr_ics"⟩
  reserveValidator := ⟨.filled 28 6, "addr_reserve"⟩
  reserveAuthPolicy := .filled 28 1
  governancePolicy := .filled 28 2

def sampleToken : AssetId := ⟨.filled 28 3, ⟨[114], by decide⟩⟩

def sampleReserveDatum : ReserveDatum := ⟨⟨sampleToken⟩, ⟨.filled 28 4, 0⟩, ⟨0⟩⟩

/-- Tokens of the given amounts: the auth token, the reserve token and another one of the reserve
token's policy. -/
def sampleTokens (auth token other : BigNum) : MultiAsset :=
  (MultiAsset.setAsset ((MultiAsset.setAsset ∅ (.filled 28 1) [] auth).setAsset
    (.filled 28 3) [114] token) (.filled 28 3) [120] other)

/-- The illiquid supply UTXO with its auth token, five tokens, and others of the policy. -/
def sampleIcsUtxo (other : BigNum) : OgmiosUtxo :=
  ⟨⟨.filled 32 7, 0⟩, "addr_ics", ⟨2000000, sampleTokens 1 5 other⟩, some []⟩

def sampleReserve (other : BigNum) : ReserveUtxo :=
  ⟨⟨⟨.filled 32 7, 1⟩, "addr_reserve", ⟨2000000, sampleTokens 1 10 other⟩, some []⟩,
    sampleReserveDatum⟩

def sampleFromBytes (_ : ByteString) : Option PlutusData :=
  some sampleReserveDatum.toPlutusData

def sampleVFunction : PlutusScript := ⟨.filled 28 4, "addr_v_function"⟩

/-- The payment key pays with one output. -/
def samplePayer : TransactionContext where
  paymentKeyHash := .filled 28 9
  paymentKeyUtxos := [⟨⟨.filled 32 9, 1⟩, "addr_payment", ⟨5000000, ∅⟩, none⟩]
  maxCollateralInputs := 3
  changeAddress := "addr_payment"

theorem reserve_transactions_conserve_iff_sample :
    ∃ tx, reserveReleaseTx sampleLib samplePayer sampleScripts (sampleReserve 0)
        (sampleIcsUtxo 0) (some sampleVFunction) 3 .zeroCosts = .ok tx ∧
      ReleaseConserves samplePayer sampleScripts (sampleReserve 0) (sampleIcsUtxo 0) 3 tx := by
  refine ⟨_, rfl, ?_⟩
  refine ((reserve_transactions_conserve_iff sampleLib_checksSums samplePayer sampleFromBytes true
    sampleScripts [(sampleReserve 0).utxo] (sampleReserve 0) rfl (sampleIcsUtxo 0)
    (some sampleVFunction) 3 (by decide)).1 .zeroCosts _ rfl).mpr fun assetName hname => ?_
  have hname : assetName ≠ [114] := hname
  have hamount : (sampleTokens 1 5 0).getAsset (.filled 28 3) assetName = 0 := by
    have hpolicy : (Bytes.filled 28 3 : PolicyId) ≠ Bytes.filled 28 1 := by decide
    simp [sampleTokens, MultiAsset.getAsset_setAsset, hname, hpolicy]
  exact hamount

/-- A release takes seven other tokens of the policy from the illiquid supply, and a deposit
takes them from the reserve. -/
theorem reserve_transactions_drop_tokens :
    (∃ tx icsOutput rest, reserveReleaseTx sampleLib samplePayer sampleScripts (sampleReserve 7)
        (sampleIcsUtxo 7) (some sampleVFunction) 3 .zeroCosts = .ok tx ∧
      tx.outputs = icsOutput :: rest ∧
      icsOutput.multiasset.getAsset (.filled 28 3) [120] = 0 ∧
      (sampleTokens 1 5 7).getAsset (.filled 28 3) [120] = 7) ∧
    ∃ tx output, depositToReserve sampleFromBytes true sampleScripts (sampleReserve 7) 3 = .ok tx ∧
      tx.outputs = [output] ∧ output.multiasset.getAsset (.filled 28 3) [120] = 0 ∧
      (sampleReserve 7).utxo.value.nativeTokens.getAsset (.filled 28 3) [120] = 7 :=
  ⟨⟨_, _, _, rfl, rfl, rfl, rfl⟩, _, _, rfl, rfl, rfl, rfl⟩

end PartnerChains.SmartContracts
