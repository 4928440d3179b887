import PartnerChains.Algorithm.PermissionedCandidates

/-!
# Permissioned candidates are read back

Version 1 is read back as it was written. In version 0 the first key is read as the Aura key,
wherever it was in the list of the candidate.
-/

namespace PartnerChains.PermissionedCandidates

open AuthoritySelection Fallible

/-! ## Round trips -/

/-- Two candidates have the same sidechain key, and the same bytes under every identifier. -/
structure SameCandidate (a b : PermissionedCandidateData) : Prop where
  sidechainPublicKey : a.sidechainPublicKey = b.sidechainPublicKey
  keys : ∀ id, find a.keys id = find b.keys id

/-- The encoded candidates are decoded to the same candidates in the same order. -/
def RoundTrips (candidates : List PermissionedCandidateData) : Prop :=
  ∃ datums, PermissionedCandidateDatums.decode
      (permissionedCandidatesToPlutusData candidates) = .ok datums ∧
    List.Forall₂ SameCandidate candidates datums.toCandidates

/-- The Aura key comes first in the list, or the Grandpa key has the same bytes. -/
def AuraFirst (keys : CandidateKeys) : Prop :=
  keys.head?.map (·.id) = some auraKeyTypeId ∨
    find keys auraKeyTypeId = find keys grandpaKeyTypeId

/-! ## Version 1 -/

theorem decodeCandidateKey_toPlutus (key : CandidateKey) :
    decodeCandidateKey (candidateKeyToPlutus key) = some key := by
  simp [decodeCandidateKey, candidateKeyToPlutus, PlutusData.asList, PlutusData.asBytes,
    Bytes.tryFrom_val]

theorem decodeCandidateKeys_toPlutus (keys : CandidateKeys) :
    decodeCandidateKeys (candidateKeysToPlutus keys) = some keys := by
  have hkeys : (keys.map candidateKeyToPlutus).mapM decodeCandidateKey =
      some (keys.map fun key => key) :=
    mapM_map_eq_some fun key _ => decodeCandidateKey_toPlutus key
  rw [List.map_id'] at hkeys
  exact hkeys

theorem asU64_integer {value : ℕ} (h : value < 2 ^ 64) :
    (PlutusData.integer value).asU64 = some value := by
  have hfits : (0 : ℤ) ≤ value ∧ (value : ℤ) < 2 ^ 64 := by omega
  simp only [PlutusData.asU64, PlutusData.asInteger, if_pos hfits, Int.toNat_natCast]

theorem plutusDataVersionAndPayload_toPlutusData {versioned : VersionedGenericDatum}
    (h : versioned.version < 2 ^ 64) :
    plutusDataVersionAndPayload versioned.toPlutusData = some versioned := by
  simp only [plutusDataVersionAndPayload, VersionedGenericDatum.toPlutusData, PlutusData.asList,
    asU64_integer h, Option.map_some]

theorem decodeV1CandidateDatum_datumV1 (candidate : PermissionedCandidateData) :
    decodeV1CandidateDatum (candidateDatumV1 candidate) =
      some ⟨candidate.sidechainPublicKey, candidate.keys⟩ := by
  simp [decodeV1CandidateDatum, candidateDatumV1, PlutusData.asList, PlutusData.asBytes,
    decodeCandidateKeys_toPlutus]

theorem decode_toPlutusDataV1 (candidates : List PermissionedCandidateData) :
    PermissionedCandidateDatums.decode (candidatesToPlutusDataV1 candidates) =
      .ok (.v1 (candidates.map fun candidate =>
        ⟨candidate.sidechainPublicKey, candidate.keys⟩)) := by
  have hlist : (candidates.map candidateDatumV1).mapM decodeV1CandidateDatum = some _ :=
    mapM_map_eq_some fun candidate _ => decodeV1CandidateDatum_datumV1 candidate
  rw [PermissionedCandidateDatums.decode, candidatesToPlutusDataV1,
    plutusDataVersionAndPayload_toPlutusData (show 1 < 2 ^ 64 by decide)]
  simp [PermissionedCandidateDatums.decodeVersioned, PermissionedCandidateDatums.decodeV1Appendix,
    PlutusData.asList, hlist]

/-! ## Version 0 -/

theorem auraKeyTypeId_ne : auraKeyTypeId ≠ grandpaKeyTypeId := by decide

theorem find_pair (a b : CandidateKey) (id : KeyTypeId) :
    find [a, b] id = if a.id = id then some a.bytes else
      if b.id = id then some b.bytes else none := by
  unfold find
  by_cases ha : a.id = id
  · simp [ha]
  · by_cases hb : b.id = id <;> simp [ha, hb]

theorem findOrEmpty_aura (aura grandpa : ByteString) :
    findOrEmpty [⟨auraKeyTypeId, aura⟩, ⟨grandpaKeyTypeId, grandpa⟩] auraKeyTypeId = aura ∧
      findOrEmpty [⟨grandpaKeyTypeId, grandpa⟩, ⟨auraKeyTypeId, aura⟩] auraKeyTypeId = aura := by
  simp [findOrEmpty, find_pair, auraKeyTypeId_ne.symm]

theorem findOrEmpty_grandpa (aura grandpa : ByteString) :
    findOrEmpty [⟨auraKeyTypeId, aura⟩, ⟨grandpaKeyTypeId, grandpa⟩] grandpaKeyTypeId =
        grandpa ∧
      findOrEmpty [⟨grandpaKeyTypeId, grandpa⟩, ⟨auraKeyTypeId, aura⟩] grandpaKeyTypeId =
        grandpa := by
  simp [findOrEmpty, find_pair, auraKeyTypeId_ne]

/-- A candidate that is written in version 0 has its two keys in one order or the other. -/
theorem hasOnlyAuraAndGrandpaKeys_iff {keys : CandidateKeys} :
    hasOnlyAuraAndGrandpaKeys keys = true ↔ ∃ aura grandpa : ByteString,
      keys = [⟨auraKeyTypeId, aura⟩, ⟨grandpaKeyTypeId, grandpa⟩] ∨
        keys = [⟨grandpaKeyTypeId, grandpa⟩, ⟨auraKeyTypeId, aura⟩] := by
  simp only [hasOnlyAuraAndGrandpaKeys, Bool.and_eq_true, decide_eq_true_eq]
  constructor
  · rintro ⟨⟨hlength, haura⟩, hgrandpa⟩
    obtain ⟨a, b, rfl⟩ := List.length_eq_two.mp hlength
    rw [find_pair] at haura hgrandpa
    obtain ⟨aId, aBytes⟩ := a
    obtain ⟨bId, bBytes⟩ := b
    dsimp only at haura hgrandpa
    split_ifs at haura with ha hb
    · subst ha
      rw [if_neg auraKeyTypeId_ne] at hgrandpa
      split_ifs at hgrandpa with hb
      · exact ⟨aBytes, bBytes, .inl (by rw [hb])⟩
      · cases hgrandpa
    · subst hb
      rw [if_neg auraKeyTypeId_ne] at hgrandpa
      split_ifs at hgrandpa with ha
      · exact ⟨bBytes, aBytes, .inr (by rw [ha])⟩
      · cases hgrandpa
    · cases haura
  · rintro ⟨aura, grandpa, rfl | rfl⟩ <;>
      simp [find_pair, auraKeyTypeId_ne, auraKeyTypeId_ne.symm]

/-- What a candidate with two keys is read back as. -/
def positional (candidate : PermissionedCandidateData) : PermissionedCandidateDatumV0 where
  sidechainPublicKey := candidate.sidechainPublicKey
  auraPublicKey := (candidate.keys[0]?.map (·.bytes)).getD []
  grandpaPublicKey := (candidate.keys[1]?.map (·.bytes)).getD []

theorem decodeLegacyCandidateDatum_datumV0 {candidate : PermissionedCandidateData}
    (h : hasOnlyAuraAndGrandpaKeys candidate.keys = true) :
    decodeLegacyCandidateDatum (candidateDatumV0 candidate) = some (positional candidate) := by
  obtain ⟨aura, grandpa, hkeys | hkeys⟩ := hasOnlyAuraAndGrandpaKeys_iff.mp h <;>
    simp [decodeLegacyCandidateDatum, candidateDatumV0, positional, hkeys, PlutusData.asList,
      PlutusData.asBytes]

theorem decode_toPlutusDataV0 {candidates : List PermissionedCandidateData}
    (h : ∀ candidate ∈ candidates, hasOnlyAuraAndGrandpaKeys candidate.keys = true) :
    PermissionedCandidateDatums.decode (candidatesToPlutusDataV0 candidates) =
      .ok (.v0 (candidates.map positional)) := by
  have hlist : (candidates.map candidateDatumV0).mapM decodeLegacyCandidateDatum = some _ :=
    mapM_map_eq_some fun candidate hmem =>
      decodeLegacyCandidateDatum_datumV0 (h candidate hmem)
  rw [PermissionedCandidateDatums.decode, candidatesToPlutusDataV0,
    plutusDataVersionAndPayload_toPlutusData (show 0 < 2 ^ 64 by decide)]
  simp [PermissionedCandidateDatums.decodeVersioned, PermissionedCandidateDatums.decodeLegacy,
    PlutusData.asList, hlist]

/-- The keys keep their identifiers when the Aura key comes first, or when the two keys
cannot be told apart. -/
theorem same_positional_iff {candidate : PermissionedCandidateData}
    (h : hasOnlyAuraAndGrandpaKeys candidate.keys = true) :
    SameCandidate candidate ⟨(positional candidate).sidechainPublicKey,
        [⟨auraKeyTypeId, (positional candidate).auraPublicKey⟩,
          ⟨grandpaKeyTypeId, (positional candidate).grandpaPublicKey⟩]⟩ ↔
      AuraFirst candidate.keys := by
  obtain ⟨sidechainPublicKey, keys⟩ := candidate
  obtain ⟨aura, grandpa, rfl | rfl⟩ := hasOnlyAuraAndGrandpaKeys_iff.mp h
  · exact iff_of_true ⟨rfl, fun _ => rfl⟩ (.inl rfl)
  · have hfirst : AuraFirst [⟨grandpaKeyTypeId, grandpa⟩, ⟨auraKeyTypeId, aura⟩] ↔
        aura = grandpa := by
      simp [AuraFirst, find_pair, auraKeyTypeId_ne.symm]
    rw [hfirst]
    constructor
    · intro hsame
      have haura := hsame.keys auraKeyTypeId
      simpa [find_pair, positional, auraKeyTypeId_ne.symm] using haura
    · rintro rfl
      refine ⟨rfl, fun id => ?_⟩
      simp only [find_pair, positional]
      by_cases haura : auraKeyTypeId = id
      · subst haura
        simp
      · simp [haura]

/-! ## Both versions -/

/-- Candidates are read back exactly when one of them has other keys than an Aura and a
Grandpa key, or when the Aura key is not behind a different Grandpa key in any of them. -/
theorem roundTrips_iff_aura_first (candidates : List PermissionedCandidateData) :
    RoundTrips candidates ↔
      (∃ candidate ∈ candidates, hasOnlyAuraAndGrandpaKeys candidate.keys = false) ∨
        ∀ candidate ∈ candidates, AuraFirst candidate.keys := by
  unfold RoundTrips permissionedCandidatesToPlutusData
  by_cases hall : ∀ candidate ∈ candidates, hasOnlyAuraAndGrandpaKeys candidate.keys = true
  · rw [if_pos (List.all_eq_true.mpr hall), decode_toPlutusDataV0 hall]
    have hnone : ¬ ∃ candidate ∈ candidates, hasOnlyAuraAndGrandpaKeys candidate.keys = false := by
      rintro ⟨candidate, hmem, hfalse⟩
      rw [hall candidate hmem] at hfalse
      cases hfalse
    rw [or_iff_right hnone]
    simp only [Except.ok.injEq, exists_eq_left', PermissionedCandidateDatums.toCandidates,
      List.map_map, List.forall₂_map_right_iff, List.forall₂_same, Function.comp_apply]
    exact forall₂_congr fun candidate hmem => same_positional_iff (hall candidate hmem)
  · rw [if_neg (mt List.all_eq_true.mp hall), decode_toPlutusDataV1]
    refine iff_of_true ?_ (.inl ?_)
    · refine ⟨_, rfl, ?_⟩
      simp only [PermissionedCandidateDatums.toCandidates, List.map_map,
        List.forall₂_map_right_iff, List.forall₂_same, Function.comp_apply]
      exact fun candidate _ => ⟨rfl, fun _ => rfl⟩
    · push Not at hall
      simpa using hall

/-- The Grandpa key of this candidate comes first. -/
def grandpaFirst : PermissionedCandidateData where
  sidechainPublicKey := List.replicate 33 2
  keys := [⟨grandpaKeyTypeId, List.replicate 32 8⟩, ⟨auraKeyTypeId, List.replicate 32 9⟩]

/-- Each key is read back under the identifier of the other. -/
theorem keys_swapped_by_version_zero :
    PermissionedCandidateDatums.decode (permissionedCandidatesToPlutusData [grandpaFirst]) =
        .ok (.v0 [⟨List.replicate 33 2, List.replicate 32 8, List.replicate 32 9⟩]) ∧
      ¬ RoundTrips [grandpaFirst] := by
  have hdecode : PermissionedCandidateDatums.decode
      (permissionedCandidatesToPlutusData [grandpaFirst]) =
        .ok (.v0 [⟨List.replicate 33 2, List.replicate 32 8, List.replicate 32 9⟩]) := rfl
  refine ⟨hdecode, ?_⟩
  rintro ⟨datums, hok, hsame⟩
  obtain rfl := Except.ok.inj (hdecode.symm.trans hok)
  have hkeys := (List.forall₂_cons.mp hsame).1.keys auraKeyTypeId
  exact absurd hkeys (by decide)

end PartnerChains.PermissionedCandidates
