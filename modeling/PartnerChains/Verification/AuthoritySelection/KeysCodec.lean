import PartnerChains.Algorithm.CandidateKeysCodec
import PartnerChains.Verification.PermissionedCandidates.RoundTrip

/-!
# Candidate keys are read back

The mark of the vector form is longer than any Aura key. The form of two byte strings has no
place for the order of the keys, and is read back with the Aura key in front.
-/

namespace PartnerChains.AuthoritySelection

open Reading PermissionedCandidates Fallible

/-- Exactly the two keys of the old form, the Grandpa key in front. -/
def GrandpaFirst (keys : CandidateKeys) : Prop :=
  ∃ aura grandpa, keys = [⟨grandpaKeyTypeId, grandpa⟩, ⟨auraKeyTypeId, aura⟩]

namespace CandidateKey

theorem reads_readId (id : KeyTypeId) : Reads readId id.val id := by
  have hlength := id.property
  intro rest
  have hle : 4 ≤ (id.val ++ rest).length := by simp [hlength]
  rw [readId, dif_pos hle]
  refine congrArg some (Prod.ext (Subtype.ext ?_) ?_)
  · exact List.take_left' hlength
  · exact List.drop_left' hlength

theorem codes {key : CandidateKey} (h : key.bytes.length < 2 ^ 32) :
    Scale.Codes encode decode key := by
  obtain ⟨written, hwritten, hreads⟩ := Scale.codes_bytes h
  refine ⟨key.id.val ++ written, ?_, (reads_readId key.id).andThen (hreads.map _)⟩
  rw [encode, hwritten, ok_bind]

end CandidateKey

theorem reads_encodeLegacyKeys {aura grandpa : ByteString} (haura : aura.length < 2 ^ 32 - 1)
    (hgrandpa : grandpa.length < 2 ^ 32) :
    ∃ written, encodeLegacyKeys aura grandpa = .ok written ∧
      Reads CandidateKeys.decode written
        [⟨auraKeyTypeId, aura⟩, ⟨grandpaKeyTypeId, grandpa⟩] := by
  have hlength : aura.length < 2 ^ 32 := by omega
  obtain ⟨last, hlast, hreadLast⟩ := Scale.codes_bytes hgrandpa
  refine ⟨Scale.compact aura.length ++ (aura ++ last), ?_, ?_⟩
  · rw [encodeLegacyKeys, hlast, Scale.encodeBytes, Scale.encodeLength_of_lt hlength]
    simp
  · refine (Scale.reads_compact hlength).andThen ?_
    have hmarker : aura.length ≠ genericKeysMarker := by
      unfold genericKeysMarker
      omega
    rw [if_neg hmarker]
    exact (reads_readTake aura).andThen (hreadLast.map _)

theorem codes_of_generic {keys : CandidateKeys} (hkeys : ∀ key ∈ keys, key.bytes.length < 2 ^ 32)
    (hlength : keys.length < 2 ^ 32) (h : hasOnlyAuraAndGrandpaKeys keys = false) :
    Scale.Codes CandidateKeys.encode CandidateKeys.decode keys := by
  obtain ⟨vector, hvector, hreads⟩ :=
    Scale.codes_vec hlength fun key hkey => CandidateKey.codes (hkeys key hkey)
  refine ⟨Scale.compact genericKeysMarker ++ vector, ?_, ?_⟩
  · simp [CandidateKeys.encode, h, hvector]
  · refine (Scale.reads_compact (by decide)).andThen ?_
    rw [if_pos rfl]
    exact hreads

theorem length_lt_of_encode {keys : CandidateKeys} {written : ByteString}
    (h : keys.encode = .ok written) : keys.length < 2 ^ 32 := by
  unfold CandidateKeys.encode at h
  split_ifs at h with honly
  · obtain ⟨aura, grandpa, rfl | rfl⟩ := hasOnlyAuraAndGrandpaKeys_iff.mp honly <;> simp
  · obtain ⟨vector, hvector, -⟩ := bind_eq_ok_iff.mp h
    obtain ⟨length, hlength, -⟩ := bind_eq_ok_iff.mp hvector
    by_contra hlong
    rw [Scale.encodeLength, if_neg hlong] at hlength
    cases hlength

/-- Keys that are at most the two of the old form are written in it, in either order. -/
theorem encode_pair (aura grandpa : ByteString) :
    CandidateKeys.encode [⟨auraKeyTypeId, aura⟩, ⟨grandpaKeyTypeId, grandpa⟩] =
        encodeLegacyKeys aura grandpa ∧
      CandidateKeys.encode [⟨grandpaKeyTypeId, grandpa⟩, ⟨auraKeyTypeId, aura⟩] =
        encodeLegacyKeys aura grandpa := by
  obtain ⟨haura, haura'⟩ := findOrEmpty_aura aura grandpa
  obtain ⟨hgrandpa, hgrandpa'⟩ := findOrEmpty_grandpa aura grandpa
  constructor
  · rw [CandidateKeys.encode, if_pos (hasOnlyAuraAndGrandpaKeys_iff.mpr ⟨_, _, .inl rfl⟩), haura,
      hgrandpa]
  · rw [CandidateKeys.encode, if_pos (hasOnlyAuraAndGrandpaKeys_iff.mpr ⟨_, _, .inr rfl⟩), haura',
      hgrandpa']

/-- The encoding of keys is read back as the same list, whatever follows, unless there are more
keys than a length can say or the keys are a Grandpa and an Aura key in this order; and two keys
in the old form are read back as these two keys. -/
theorem candidateKeys_codec_iff (keys : CandidateKeys) (aura grandpa : ByteString) :
    ((∀ key ∈ keys, key.bytes.length < 2 ^ 32 - 1) →
      (Scale.Codes CandidateKeys.encode CandidateKeys.decode keys ↔
        keys.length < 2 ^ 32 ∧ ¬ GrandpaFirst keys)) ∧
    (aura.length < 2 ^ 32 - 1 → grandpa.length < 2 ^ 32 - 1 →
      ∃ written, encodeLegacyKeys aura grandpa = .ok written ∧
        Reads CandidateKeys.decode written
          [⟨auraKeyTypeId, aura⟩, ⟨grandpaKeyTypeId, grandpa⟩]) := by
  refine ⟨fun hkeys => ⟨?_, ?_⟩, fun haura hgrandpa =>
    reads_encodeLegacyKeys haura (by omega)⟩
  · rintro ⟨written, hwritten, hreads⟩
    refine ⟨length_lt_of_encode hwritten, ?_⟩
    rintro ⟨aura, grandpa, rfl⟩
    obtain ⟨hgrandpa, haura⟩ : grandpa.length < 2 ^ 32 - 1 ∧ aura.length < 2 ^ 32 - 1 := by
      simpa using hkeys
    obtain ⟨written', hwritten', hreads'⟩ :=
      reads_encodeLegacyKeys haura (show grandpa.length < 2 ^ 32 by omega)
    obtain rfl : written = written' :=
      Except.ok.inj (hwritten.symm.trans ((encode_pair aura grandpa).2.trans hwritten'))
    have hsame := (hreads.unique hreads' (rfl : written ++ [] = written ++ [])).1
    simp [auraKeyTypeId_ne.symm] at hsame
  · rintro ⟨hlength, hfirst⟩
    cases honly : hasOnlyAuraAndGrandpaKeys keys with
    | false =>
        refine codes_of_generic (fun key hkey => ?_) hlength honly
        have hkey := hkeys key hkey
        omega
    | true =>
        obtain ⟨aura, grandpa, rfl | rfl⟩ := hasOnlyAuraAndGrandpaKeys_iff.mp honly
        · obtain ⟨haura, hgrandpa⟩ :
              aura.length < 2 ^ 32 - 1 ∧ grandpa.length < 2 ^ 32 - 1 := by
            simpa using hkeys
          obtain ⟨written, hwritten, hreads⟩ :=
            reads_encodeLegacyKeys haura (show grandpa.length < 2 ^ 32 by omega)
          exact ⟨written, (encode_pair aura grandpa).1.trans hwritten, hreads⟩
        · exact absurd ⟨aura, grandpa, rfl⟩ hfirst

/-- An Aura key, and a key that the old form does not know. -/
theorem candidateKeys_codec_iff_other_key :
    ∃ written, CandidateKeys.encode [⟨auraKeyTypeId, [9]⟩, ⟨⟨[1, 2, 3, 4], rfl⟩, []⟩] =
        .ok written ∧
      Reads CandidateKeys.decode written [⟨auraKeyTypeId, [9]⟩, ⟨⟨[1, 2, 3, 4], rfl⟩, []⟩] := by
  refine ((candidateKeys_codec_iff _ [] []).1 (by simp)).mpr ⟨by simp, ?_⟩
  rintro ⟨aura, grandpa, h⟩
  simp [auraKeyTypeId_ne] at h

theorem grandpa_first_is_reordered :
    CandidateKeys.encode [⟨grandpaKeyTypeId, [7]⟩, ⟨auraKeyTypeId, [9]⟩] = .ok [4, 9, 4, 7] ∧
      CandidateKeys.decode [4, 9, 4, 7] =
        some ([⟨auraKeyTypeId, [9]⟩, ⟨grandpaKeyTypeId, [7]⟩], []) := by
  constructor <;> rfl

end PartnerChains.AuthoritySelection
