import PartnerChains.Library.Insertion
import PartnerChains.Algorithm.ScriptUtxos

/-!
# Outputs without the token of a policy

Lookups that ask for the token of the policy do not see outputs without it. The lookup of a
script by its datum does.
-/

namespace PartnerChains.SmartContracts

/-- The policies of the tokens that authenticate outputs at the three addresses. -/
structure Policies where
  versionOracle : PolicyId
  reserveAuth : PolicyId
  governedMap : PolicyId

/-- Outputs at the three addresses. -/
structure ValidatorUtxos where
  versionOracle : List OgmiosUtxo
  reserve : List OgmiosUtxo
  governedMap : List OgmiosUtxo

/-- The results of all lookups. -/
structure Lookups where
  findScriptUtxo : Option OgmiosUtxo
  scriptIsInitialized : Bool
  getGovernanceUtxo : Option OgmiosUtxo
  getReserveUtxo : Except AnyhowError ReserveUtxo
  governedMapUtxos : Except Panic (List (OgmiosUtxo × GovernedMapDatum))
  getCurrentValue : Except Panic (Option ByteString)
  getUtxosForKey : Except Panic (List OgmiosUtxo)

def lookups (fromBytes : ByteString → Option PlutusData) (policies : Policies)
    (scriptId : UInt32) (key : String) (utxos : ValidatorUtxos) : Lookups where
  findScriptUtxo := findScriptUtxo fromBytes scriptId policies.versionOracle utxos.versionOracle
  scriptIsInitialized :=
    scriptIsInitialized fromBytes scriptId policies.versionOracle utxos.versionOracle
  getGovernanceUtxo := getGovernanceUtxo fromBytes policies.versionOracle utxos.versionOracle
  getReserveUtxo := getReserveUtxo fromBytes policies.reserveAuth utxos.reserve
  governedMapUtxos :=
    ogmiosUtxosToGovernedMapUtxos fromBytes utxos.governedMap policies.governedMap
  getCurrentValue := getCurrentValue fromBytes utxos.governedMap key policies.governedMap
  getUtxosForKey := getUtxosForKey fromBytes utxos.governedMap key policies.governedMap

/-- An output holds a token of the policy. -/
def OgmiosUtxo.HoldsToken (utxo : OgmiosUtxo) (policyId : PolicyId) : Prop :=
  policyId ∈ utxo.value.nativeTokens

/-- No output holds the token that authenticates its address. -/
structure ValidatorUtxos.Unauthenticated (policies : Policies) (utxos : ValidatorUtxos) :
    Prop where
  versionOracle : ∀ utxo ∈ utxos.versionOracle, ¬ utxo.HoldsToken policies.versionOracle
  reserve : ∀ utxo ∈ utxos.reserve, ¬ utxo.HoldsToken policies.reserveAuth
  governedMap : ∀ utxo ∈ utxos.governedMap, ¬ utxo.HoldsToken policies.governedMap

/-- The added outputs are inserted at any positions of their addresses. -/
structure ValidatorUtxos.Extends (added original extended : ValidatorUtxos) : Prop where
  versionOracle : Inserted added.versionOracle original.versionOracle extended.versionOracle
  reserve : Inserted added.reserve original.reserve extended.reserve
  governedMap : Inserted added.governedMap original.governedMap extended.governedMap

variable (fromBytes : ByteString → Option PlutusData) {policyId : PolicyId} {utxo : OgmiosUtxo}
  {added original extended : List OgmiosUtxo}

/-! ## Lookups that ask for a token -/

theorem lookup_eq_none_of_not_holds (h : ¬ utxo.HoldsToken policyId) :
    utxo.value.nativeTokens.lookup policyId = none :=
  AList.lookup_eq_none.mpr h

theorem getGovernanceUtxo_inserted (hinserted : Inserted added original extended)
    (hadded : ∀ utxo ∈ added, ¬ utxo.HoldsToken policyId) :
    getGovernanceUtxo fromBytes policyId extended =
      getGovernanceUtxo fromBytes policyId original := by
  apply hinserted.find?_eq
  intro utxo hutxo
  simp [lookup_eq_none_of_not_holds (hadded utxo hutxo)]

theorem asReserveUtxo_of_not_holds (h : ¬ utxo.HoldsToken policyId) :
    asReserveUtxo fromBytes policyId utxo = none := by
  have hamount : utxo.getAssetAmount (emptyNameAsset policyId) = 0 := by
    simp [OgmiosUtxo.getAssetAmount, MultiAsset.getAsset, emptyNameAsset,
      lookup_eq_none_of_not_holds h]
  simp [asReserveUtxo, hamount]

theorem getReserveUtxo_inserted (hinserted : Inserted added original extended)
    (hadded : ∀ utxo ∈ added, ¬ utxo.HoldsToken policyId) :
    getReserveUtxo fromBytes policyId extended =
      getReserveUtxo fromBytes policyId original := by
  rw [getReserveUtxo, getReserveUtxo, hinserted.findSome?_eq]
  intro utxo hutxo
  exact asReserveUtxo_of_not_holds fromBytes (hadded utxo hutxo)

theorem governedMapUtxo_of_not_holds (h : ¬ utxo.HoldsToken policyId) :
    ogmiosUtxoToGovernedMapUtxo fromBytes policyId utxo = .ok none := by
  simp [ogmiosUtxoToGovernedMapUtxo, lookup_eq_none_of_not_holds h]

theorem ofEntryWithKey_of_not_holds {α : Type} {key : String}
    {result : OgmiosUtxo × GovernedMapDatum → α} (h : ¬ utxo.HoldsToken policyId) :
    ofEntryWithKey fromBytes policyId key result utxo = .ok none := by
  simp [ofEntryWithKey, governedMapUtxo_of_not_holds fromBytes h]

/-! ## All lookups -/

/-- Inserting outputs without the authenticating tokens never changes a result, exactly when
none of those at the address of the version oracle has the datum that is looked for. -/
theorem lookups_unchanged_iff (fromBytes : ByteString → Option PlutusData) (policies : Policies)
    (scriptId : UInt32) (key : String) (added : ValidatorUtxos)
    (hadded : added.Unauthenticated policies) :
    (∀ original extended, added.Extends original extended →
      lookups fromBytes policies scriptId key extended =
        lookups fromBytes policies scriptId key original) ↔
    ∀ utxo ∈ added.versionOracle,
      ¬ hasScriptDatum fromBytes scriptId policies.versionOracle utxo := by
  constructor
  · intro hunchanged utxo hutxo
    have halone := hunchanged ⟨[], [], []⟩ added ⟨.alone _, .alone _, .alone _⟩
    have hfind : added.versionOracle.find?
        (hasScriptDatum fromBytes scriptId policies.versionOracle) = none :=
      congrArg Lookups.findScriptUtxo halone
    exact List.find?_eq_none.mp hfind utxo hutxo
  · intro hdatum original extended hextends
    have hfind : findScriptUtxo fromBytes scriptId policies.versionOracle
        extended.versionOracle =
          findScriptUtxo fromBytes scriptId policies.versionOracle original.versionOracle :=
      hextends.versionOracle.find?_eq hdatum
    simp only [lookups, Lookups.mk.injEq]
    refine ⟨hfind, congrArg Option.isSome hfind,
      getGovernanceUtxo_inserted fromBytes hextends.versionOracle hadded.versionOracle,
      getReserveUtxo_inserted fromBytes hextends.reserve hadded.reserve, ?_, ?_, ?_⟩
    · apply hextends.governedMap.filterMapM_eq
      exact fun utxo hutxo => governedMapUtxo_of_not_holds fromBytes (hadded.governedMap utxo hutxo)
    · apply hextends.governedMap.findSomeM?_eq
      exact fun utxo hutxo => ofEntryWithKey_of_not_holds fromBytes (hadded.governedMap utxo hutxo)
    · apply hextends.governedMap.filterMapM_eq
      exact fun utxo hutxo => ofEntryWithKey_of_not_holds fromBytes (hadded.governedMap utxo hutxo)

/-! ### An output that names the reserve validator -/

/-- Plutus data of the form of a version oracle datum, for every sequence of bytes. -/
def versionOracleData (scriptId : ByteString) : Option PlutusData :=
  some (.list [.integer (scriptId.headD 0).toNat, .bytes (List.replicate 28 1)])

def samplePolicies : Policies := ⟨.filled 28 1, .filled 28 2, .filled 28 3⟩

/-- An output of ada only, with the given bytes as its datum. -/
def adaOnlyUtxo (datum : ByteString) : OgmiosUtxo where
  utxoId := ⟨.filled 32 9, 0⟩
  address := "addr_version_oracle"
  value := ⟨1500000, ∅⟩
  datum := some datum

def authenticUtxo (datum : ByteString) : OgmiosUtxo :=
  { adaOnlyUtxo datum with
    utxoId := ⟨.filled 32 8, 0⟩
    value := ⟨1500000, AList.singleton samplePolicies.versionOracle (AList.singleton [] 1)⟩ }

/-- The data of other scripts do not matter, and neither does any datum at the other addresses. -/
theorem lookups_unchanged_other_scripts :
    let original : ValidatorUtxos := ⟨[authenticUtxo [4]], [], []⟩
    let extended : ValidatorUtxos := ⟨[adaOnlyUtxo [3], authenticUtxo [4], adaOnlyUtxo [5]],
      [adaOnlyUtxo [4]], [adaOnlyUtxo [4], adaOnlyUtxo [6]]⟩
    findScriptUtxo versionOracleData 4 samplePolicies.versionOracle extended.versionOracle =
        some (authenticUtxo [4]) ∧
      lookups versionOracleData samplePolicies 4 "key" extended =
        lookups versionOracleData samplePolicies 4 "key" original := by
  intro original extended
  have hada (datum : ByteString) (policy : PolicyId) : ¬ (adaOnlyUtxo datum).HoldsToken policy := by
    simp [OgmiosUtxo.HoldsToken, adaOnlyUtxo, AList.notMem_empty]
  refine ⟨rfl, (lookups_unchanged_iff versionOracleData samplePolicies 4 "key"
    ⟨[adaOnlyUtxo [3], adaOnlyUtxo [5]], extended.reserve, extended.governedMap⟩
    ⟨?_, ?_, ?_⟩).mpr (by decide) original extended
      ⟨.insert _ (.keep _ (.insert _ .nil)), .alone _, .alone _⟩⟩
  all_goals simp [hada, extended]

/-- An output without tokens is found as the one of the script and makes the script count as
initialized. -/
theorem ada_only_utxo_is_found :
    ¬ (adaOnlyUtxo [4]).HoldsToken samplePolicies.versionOracle ∧
      findScriptUtxo versionOracleData 4 samplePolicies.versionOracle [adaOnlyUtxo [4]] =
        some (adaOnlyUtxo [4]) ∧
      scriptIsInitialized versionOracleData 4 samplePolicies.versionOracle
        [adaOnlyUtxo [4]] = true ∧
      scriptIsInitialized versionOracleData 4 samplePolicies.versionOracle [] = false := by
  refine ⟨?_, rfl, rfl, rfl⟩
  simp [OgmiosUtxo.HoldsToken, adaOnlyUtxo, AList.notMem_empty]

end PartnerChains.SmartContracts
