import PartnerChains.Library.DistinctCount
import PartnerChains.Algorithm.Governance

/-!
# What the threshold counts

The ledger counts the listed scripts that are satisfied. These are occurrences of authorities in
the list, not different authorities.
-/

namespace PartnerChains.SmartContracts

open DistinctCount

theorem NativeScript.countSatisfied_pubkeys (signers : Finset MainchainKeyHash)
    (keyHashes : List MainchainKeyHash) :
    countSatisfied signers (keyHashes.map .scriptPubkey) = occurrences keyHashes signers := by
  induction keyHashes with
  | nil => rfl
  | cons keyHash keyHashes ih =>
      rw [List.map_cons, countSatisfied, ih, satisfiedBy, occurrences, occurrences,
        List.countP_cons, add_comm]
      by_cases h : keyHash ∈ signers <;> simp [h]

theorem SimpleAtLeastN.satisfiedBy_iff (policy : SimpleAtLeastN)
    (signers : Finset MainchainKeyHash) :
    policy.toCslNativeScript.satisfiedBy signers = true ↔
      policy.threshold.toNat ≤ occurrences policy.keyHashes signers := by
  rw [toCslNativeScript, NativeScript.satisfiedBy, NativeScript.countSatisfied_pubkeys,
    decide_eq_true_iff]

namespace MultiSigParameters

theorem new_eq_ok {authorities : List MainchainKeyHash} {threshold : UInt8}
    {parameters : MultiSigParameters} (h : new authorities threshold = .ok parameters) :
    parameters.governanceAuthorities = authorities ∧ parameters.threshold = threshold := by
  unfold new at h
  split_ifs at h
  obtain rfl := Except.ok.inj h
  exact ⟨rfl, rfl⟩

theorem satisfiedBy_iff (parameters : MultiSigParameters) (signers : Finset MainchainKeyHash) :
    parameters.asSimpleAtLeastN.toCslNativeScript.satisfiedBy signers = true ↔
      parameters.threshold.toNat ≤ occurrences parameters.governanceAuthorities signers := by
  rw [SimpleAtLeastN.satisfiedBy_iff]
  simp [asSimpleAtLeastN]

/-- A single required signature cannot come from a repetition. -/
theorem one_le_occurrences_iff {authorities : List MainchainKeyHash}
    {signers : Finset MainchainKeyHash} :
    1 ≤ occurrences authorities signers ↔ 1 ≤ distinct authorities signers := by
  rw [occurrences, distinct, Nat.one_le_iff_ne_zero, Nat.one_le_iff_ne_zero, Ne, Ne,
    List.countP_eq_zero, Finset.card_eq_zero, Finset.eq_empty_iff_forall_notMem]
  simp

/-- Enough different signers always satisfy the script. Fewer never do exactly when one signature
is enough anyway or no authority is listed twice. -/
theorem threshold_counts_distinct_iff {authorities : List MainchainKeyHash} {threshold : UInt8}
    {parameters : MultiSigParameters} (h : new authorities threshold = .ok parameters) :
    (∀ signers, threshold.toNat ≤ distinct authorities signers →
      parameters.asSimpleAtLeastN.toCslNativeScript.satisfiedBy signers = true) ∧
    ((∀ signers, parameters.asSimpleAtLeastN.toCslNativeScript.satisfiedBy signers = true ↔
        threshold.toNat ≤ distinct authorities signers) ↔
      threshold = 1 ∨ authorities.Nodup) := by
  obtain ⟨rfl, rfl⟩ := new_eq_ok h
  simp only [satisfiedBy_iff]
  refine ⟨fun signers henough => henough.trans distinct_le_occurrences, ?_, ?_⟩
  · intro hcounts
    by_contra hneither
    push Not at hneither
    obtain ⟨hone, hrepeated⟩ := hneither
    have htwo : 2 ≤ parameters.threshold.toNat := by
      have hzero : parameters.threshold.toNat ≠ 0 :=
        fun hzero => parameters.positive (UInt8.toNat_inj.mp hzero)
      have hne : parameters.threshold.toNat ≠ 1 := fun heq => hone (UInt8.toNat_inj.mp heq)
      omega
    obtain ⟨signers, henough, hfew⟩ :=
      exists_distinct_lt hrepeated htwo parameters.threshold_le
    exact absurd ((hcounts signers).mp henough) (not_le.mpr hfew)
  · rintro (hone | hnodup) signers
    · rw [hone]
      exact one_le_occurrences_iff
    · rw [distinct_eq_occurrences_of_nodup hnodup]

/-- Two different authorities, both of which have to sign. -/
theorem threshold_counts_distinct_iff_two :
    ∃ parameters, new [.filled 28 1, .filled 28 2] 2 = .ok parameters ∧
      parameters.asSimpleAtLeastN.toCslNativeScript.satisfiedBy {.filled 28 1} = false := by
  obtain ⟨parameters, h⟩ : ∃ parameters, new [.filled 28 1, .filled 28 2] 2 = .ok parameters :=
    ⟨_, rfl⟩
  obtain ⟨-, hiff⟩ := threshold_counts_distinct_iff h
  have hcounts := hiff.mpr (.inr (by decide))
  refine ⟨parameters, h, Bool.eq_false_iff.mpr fun hsatisfied => ?_⟩
  exact absurd ((hcounts _).mp hsatisfied) (by decide)

/-- The same authority twice: it alone reaches the threshold of two. -/
theorem one_signer_reaches_two :
    ∃ parameters, new [.filled 28 1, .filled 28 1] 2 = .ok parameters ∧
      parameters.asSimpleAtLeastN.toCslNativeScript.satisfiedBy {.filled 28 1} = true ∧
      distinct [.filled 28 1, .filled 28 1] {(.filled 28 1 : MainchainKeyHash)} = 1 :=
  ⟨_, rfl, by decide, by decide⟩

end MultiSigParameters

end PartnerChains.SmartContracts
