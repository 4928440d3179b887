import PartnerChains.Algorithm.TokenTransactions

/-! # Amounts in values that are converted and updated -/

namespace PartnerChains.SmartContracts

open Fallible

namespace MultiAsset

variable (ma : MultiAsset) {policyId policyId' : PolicyId} {assetName assetName' : AssetName}

@[simp]
theorem getAsset_empty (policyId : PolicyId) (assetName : AssetName) :
    getAsset ∅ policyId assetName = 0 := by
  simp [getAsset]

theorem getAsset_insert (assets : Assets) :
    getAsset (ma.insert policyId assets) policyId' assetName' =
      if policyId' = policyId then (assets.lookup assetName').getD 0
      else ma.getAsset policyId' assetName' := by
  split_ifs with hpolicy
  · subst hpolicy
    simp [getAsset]
  · simp [getAsset, AList.lookup_insert_ne hpolicy]

theorem getAsset_setAsset (value : BigNum) :
    (ma.setAsset policyId assetName value).getAsset policyId' assetName' =
      if policyId' = policyId ∧ assetName' = assetName then value
      else ma.getAsset policyId' assetName' := by
  rw [setAsset, getAsset_insert]
  by_cases hpolicy : policyId' = policyId
  · subst hpolicy
    by_cases hname : assetName' = assetName
    · subst hname
      simp
    · rw [if_pos rfl, AList.lookup_insert_ne hname, if_neg (fun h => hname h.2)]
      cases hassets : ma.lookup policyId' <;> simp [getAsset, hassets]
  · simp [hpolicy]

theorem getAsset_replaceAssets (rest : Assets) :
    getAsset (if rest.entries.isEmpty then ma.erase policyId else ma.insert policyId rest)
        policyId' assetName' =
      if policyId' = policyId then (rest.lookup assetName').getD 0
      else ma.getAsset policyId' assetName' := by
  by_cases hempty : rest.entries.isEmpty
  · obtain rfl : rest = ∅ := AList.ext (List.isEmpty_iff.mp hempty)
    rw [if_pos hempty]
    split_ifs with hpolicy
    · subst hpolicy
      simp [getAsset]
    · simp [getAsset, AList.lookup_erase_ne hpolicy]
  · rw [if_neg hempty, getAsset_insert]

/-- Taking off all there is of an asset removes it. -/
theorem getAsset_subAsset_all (h : 0 < ma.getAsset policyId assetName) :
    (ma.subAsset policyId assetName (ma.getAsset policyId assetName)).getAsset policyId'
        assetName' =
      if policyId' = policyId ∧ assetName' = assetName then 0
      else ma.getAsset policyId' assetName' := by
  cases hassets : ma.lookup policyId with
  | none => simp [getAsset, hassets] at h
  | some assets =>
      cases hcurrent : assets.lookup assetName with
      | none => simp [getAsset, hassets, hcurrent] at h
      | some current =>
          have hall : ma.getAsset policyId assetName = current := by
            simp [getAsset, hassets, hcurrent]
          simp only [subAsset, hassets, hcurrent, hall, UInt64.lt_irrefl, if_false]
          rw [getAsset_replaceAssets]
          by_cases hpolicy : policyId' = policyId
          · subst hpolicy
            by_cases hname : assetName' = assetName
            · subst hname
              simp [AList.lookup_erase]
            · simp [getAsset, hassets, hname, AList.lookup_erase_ne hname]
          · simp [hpolicy]

theorem getAsset_withAssetAmount (asset : AssetId) (amount : BigNum) :
    (ma.withAssetAmount asset amount).getAsset policyId' assetName' =
      if policyId' = asset.policyId ∧ assetName' = asset.assetName.toList then amount
      else ma.getAsset policyId' assetName' := by
  rw [withAssetAmount]
  by_cases hamount : amount > 0
  · rw [if_pos hamount, getAsset_setAsset]
  · obtain rfl : amount = 0 := by simpa using hamount
    rw [if_neg hamount]
    by_cases hcurrent : ma.getAsset asset.policyId asset.assetName.toList > 0
    · have hsub : ma.sub (setAsset ∅ asset.policyId asset.assetName.toList
          (ma.getAsset asset.policyId asset.assetName.toList)) =
            ma.subAsset asset.policyId asset.assetName.toList
              (ma.getAsset asset.policyId asset.assetName.toList) := by
        simp [sub, setAsset, AList.singleton]
      simp only [if_pos hcurrent, hsub, getAsset_subAsset_all ma hcurrent]
    · simp only [if_neg hcurrent]
      split_ifs with hasset
      · rw [hasset.1, hasset.2]
        simpa using hcurrent
      · rfl

end MultiAsset

/-! ## Conversion -/

variable {error : AssetName → JsError}

theorem assetAmountToCsl_eq_ok {assetName : AssetName} {amount converted : BigNum}
    (h : assetAmountToCsl error assetName amount = .ok converted) :
    converted = amount := by
  unfold assetAmountToCsl at h
  split_ifs at h
  exact (Except.ok.inj h).symm

theorem lookup_assetsToCsl {assets converted : Assets}
    (h : KeyedMap.insertAllM (assetAmountToCsl error) assets.entries = .ok converted)
    (assetName : AssetName) : converted.lookup assetName = assets.lookup assetName := by
  obtain ⟨hsome, hnone⟩ := KeyedMap.lookup_insertAllM h assetName
  cases hamount : assets.lookup assetName with
  | none => exact hnone hamount
  | some amount =>
      obtain ⟨converted, hconverted, hlookup⟩ := hsome amount hamount
      rw [hlookup, assetAmountToCsl_eq_ok hconverted]

theorem getAsset_nativeTokensToCsl {tokens ma : MultiAsset}
    (h : nativeTokensToCsl error tokens = .ok ma) (policyId : PolicyId) (assetName : AssetName) :
    ma.getAsset policyId assetName = tokens.getAsset policyId assetName := by
  obtain ⟨hsome, hnone⟩ := KeyedMap.lookup_insertAllM h policyId
  cases hassets : tokens.lookup policyId with
  | none => simp [MultiAsset.getAsset, hassets, hnone hassets]
  | some assets =>
      obtain ⟨converted, hconverted, hlookup⟩ := hsome assets hassets
      simp [MultiAsset.getAsset, hassets, hlookup, lookup_assetsToCsl hconverted assetName]

theorem getAsset_of_toCsl {value : OgmiosValue} {converted : Value} {ma : MultiAsset}
    (h : value.toCsl = .ok converted) (hma : converted.multiasset = some ma)
    (policyId : PolicyId) (assetName : AssetName) :
    ma.getAsset policyId assetName = value.nativeTokens.getAsset policyId assetName := by
  unfold OgmiosValue.toCsl at h
  split_ifs at h
  · obtain rfl := Except.ok.inj h
    cases hma
  · obtain ⟨multiasset, hmultiasset, h⟩ := bind_eq_ok_iff.mp h
    obtain rfl := Except.ok.inj h
    obtain rfl := Option.some.inj hma
    exact getAsset_nativeTokensToCsl hmultiasset policyId assetName

theorem orElse_eq_ok_iff {α : Type} {error : BuildError} {value? : Option α} {value : α} :
    orElse error value? = .ok value ↔ value? = some value := by
  cases value? <;> simp [orElse]

/-! ## Arithmetic -/

theorem checkedAdd_eq_some {a b sum : BigNum} (h : a.checkedAdd b = some sum) :
    sum.toNat = a.toNat + b.toNat := by
  unfold BigNum.checkedAdd at h
  split_ifs at h with hlt
  rw [← Option.some.inj h, UInt64.toNat_add, Nat.mod_eq_of_lt hlt]

theorem checkedSub_eq_some {a b difference : BigNum} (h : a.checkedSub b = some difference) :
    difference.toNat + b.toNat = a.toNat := by
  unfold BigNum.checkedSub at h
  split_ifs at h with hle
  have hle' := UInt64.le_iff_toNat_le.mp hle
  rw [← Option.some.inj h, UInt64.toNat_sub_of_le _ _ hle]
  omega

theorem saturatingAdd_toNat (a b : BigNum) :
    (a.saturatingAdd b).toNat = min (a.toNat + b.toNat) (2 ^ 64 - 1) := by
  unfold BigNum.saturatingAdd
  split_ifs with hlt
  · rw [UInt64.toNat_add, Nat.mod_eq_of_lt hlt]
    omega
  · have hmax : (18446744073709551615 : UInt64).toNat = 2 ^ 64 - 1 := rfl
    rw [hmax]
    omega

end PartnerChains.SmartContracts
