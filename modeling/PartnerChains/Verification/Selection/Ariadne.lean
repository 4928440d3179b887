import PartnerChains.Algorithm.Ariadne
import PartnerChains.Verification.Selection.Seats

/-!
# The law of the original selection

Exactly when the sums of the source fit their types, the committee has all its seats and the two
kinds of candidates are drawn in the ratio of their numbers of seats.
-/

namespace PartnerChains.Selection.Ariadne

open AriadneV2 (StakeWeights totalWeight_perm candidateLe)

variable {α : Type} {numTrustless numPermissioned : UInt16}
  {trustless : List (α × Weight)} {permissioned : List α}

/-! ## Exact weights -/

/-- What the stake of a trustless candidate is multiplied by. -/
def weightFactor (numTrustless : UInt16) (permissioned : List α) : ℕ :=
  if 0 < permissioned.length then numTrustless.toNat * permissioned.length else 1

def permissionedWeight (numPermissioned numTrustless : UInt16) (totalStake : ℕ) : ℕ :=
  if 0 < totalStake ∧ 0 < numTrustless then numPermissioned.toNat * totalStake else 1

def weightedTrustless (numTrustless : UInt16) (trustless : List (α × Weight))
    (permissioned : List α) : List (α × Weight) :=
  trustless.map fun (candidate, weight) =>
    (candidate, weight * weightFactor numTrustless permissioned)

def weightedPermissioned (numPermissioned numTrustless : UInt16)
    (trustless : List (α × Weight)) (permissioned : List α) : List (α × Weight) :=
  permissioned.map fun candidate =>
    (candidate, permissionedWeight numPermissioned numTrustless (totalWeight trustless))

theorem totalWeight_append (candidates candidates' : List (α × Weight)) :
    totalWeight (candidates ++ candidates') = totalWeight candidates + totalWeight candidates' := by
  simp [totalWeight]

theorem totalWeight_weightedTrustless :
    totalWeight (weightedTrustless numTrustless trustless permissioned) =
      totalWeight trustless * weightFactor numTrustless permissioned := by
  simp [totalWeight, weightedTrustless, Function.comp_def, List.sum_map_mul_right]

theorem totalWeight_weightedPermissioned :
    totalWeight (weightedPermissioned numPermissioned numTrustless trustless permissioned) =
      permissioned.length *
        permissionedWeight numPermissioned numTrustless (totalWeight trustless) := by
  simp [totalWeight, weightedPermissioned, Function.comp_def]

/-- All products and sums of the source fit: the number of seats 16 bits, everything about weights
128. -/
structure Fits (numTrustless numPermissioned : UInt16) (trustless : List (α × Weight))
    (permissioned : List α) : Prop where
  seats : numTrustless.toNat + numPermissioned.toNat < 2 ^ 16
  stake : totalWeight trustless < 2 ^ 128
  factor : weightFactor numTrustless permissioned < 2 ^ 128
  weight : permissionedWeight numPermissioned numTrustless (totalWeight trustless) < 2 ^ 128
  total : totalWeight (weightedTrustless numTrustless trustless permissioned) +
    totalWeight (weightedPermissioned numPermissioned numTrustless trustless permissioned) <
      2 ^ 128

/-- With someone to choose from, there is weight to draw from. -/
theorem totalWeight_pos (hweights : StakeWeights trustless)
    (hsome : ¬ (trustless = [] ∧ permissioned = [])) :
    0 < totalWeight (weightedTrustless numTrustless trustless permissioned) +
      totalWeight (weightedPermissioned numPermissioned numTrustless trustless permissioned) := by
  rw [totalWeight_weightedTrustless, totalWeight_weightedPermissioned]
  by_cases hpermissioned : permissioned = []
  · -- the stakes are unmodified
    have hstake := hweights.totalWeight_pos fun h => hsome ⟨h, hpermissioned⟩
    simpa [weightFactor, hpermissioned] using hstake
  · have hlength : 0 < permissioned.length := List.length_pos_iff.mpr hpermissioned
    by_cases hboth : 0 < totalWeight trustless ∧ 0 < numTrustless
    · have hnum : 0 < numTrustless.toNat := UInt16.lt_iff_toNat_lt.mp hboth.2
      rw [weightFactor, if_pos hlength]
      exact Nat.add_pos_left (Nat.mul_pos hboth.1 (Nat.mul_pos hnum hlength)) _
    · rw [permissionedWeight, if_neg hboth, Nat.mul_one]
      exact Nat.add_pos_right _ hlength

/-- Both totals have the number of permissioned candidates and the total stake as factors. -/
theorem ratio_eq (hweights : StakeWeights trustless) (htrustless : trustless ≠ [])
    (hpermissioned : permissioned ≠ []) (hnum : 0 < numTrustless) (hnum' : 0 < numPermissioned) :
    (totalWeight (weightedTrustless numTrustless trustless permissioned) : ℚ) /
        totalWeight (weightedPermissioned numPermissioned numTrustless trustless permissioned) =
      numTrustless.toNat / numPermissioned.toNat ∧
    0 < totalWeight (weightedPermissioned numPermissioned numTrustless trustless
      permissioned) := by
  have hstake := hweights.totalWeight_pos htrustless
  have hlength : 0 < permissioned.length := List.length_pos_iff.mpr hpermissioned
  have hpos' : 0 < numPermissioned.toNat := UInt16.lt_iff_toNat_lt.mp hnum'
  rw [totalWeight_weightedTrustless, totalWeight_weightedPermissioned, weightFactor,
    if_pos hlength, permissionedWeight, if_pos ⟨hstake, hnum⟩]
  refine ⟨?_, Nat.mul_pos hlength (Nat.mul_pos hpos' hstake)⟩
  have hstake' : (totalWeight trustless : ℚ) ≠ 0 := by exact_mod_cast hstake.ne'
  have hlength' : (permissioned.length : ℚ) ≠ 0 := by exact_mod_cast hlength.ne'
  have hpos'' : (numPermissioned.toNat : ℚ) ≠ 0 := by exact_mod_cast hpos'.ne'
  push_cast
  field_simp

theorem map_fst_weighted :
    (weightedTrustless numTrustless trustless permissioned ++
        weightedPermissioned numPermissioned numTrustless trustless permissioned).map (·.1) =
      trustless.map (·.1) ++ permissioned := by
  simp [weightedTrustless, weightedPermissioned, Function.comp_def]

/-- With fewer candidates of each kind than 2 to the power of 23, only the number of seats
matters. -/
theorem fits_iff_of_length_lt (hweights : StakeWeights trustless)
    (htrustless : trustless.length < 2 ^ 23) (hpermissioned : permissioned.length < 2 ^ 23) :
    Fits numTrustless numPermissioned trustless permissioned ↔
      numTrustless.toNat + numPermissioned.toNat < 2 ^ 16 := by
  refine ⟨Fits.seats, fun hseats => ?_⟩
  have hstake : totalWeight trustless ≤ 2 ^ 23 * 2 ^ 64 := by
    have hle := List.sum_le_card_nsmul (trustless.map (·.2)) (2 ^ 64) fun w hw => by
      obtain ⟨candidate, hmem, rfl⟩ := List.mem_map.mp hw
      exact (hweights candidate hmem).2.le
    rw [List.length_map, smul_eq_mul] at hle
    exact hle.trans (Nat.mul_le_mul_right _ htrustless.le)
  have hfactor : weightFactor numTrustless permissioned ≤ 2 ^ 16 * 2 ^ 23 := by
    rw [weightFactor]
    split
    · exact Nat.mul_le_mul numTrustless.toNat_lt.le hpermissioned.le
    · norm_num
  have hweight : permissionedWeight numPermissioned numTrustless (totalWeight trustless) ≤
      2 ^ 16 * (2 ^ 23 * 2 ^ 64) := by
    rw [permissionedWeight]
    split
    · exact Nat.mul_le_mul numPermissioned.toNat_lt.le hstake
    · norm_num
  refine ⟨hseats, by omega, by omega, by omega, ?_⟩
  rw [totalWeight_weightedTrustless, totalWeight_weightedPermissioned]
  calc totalWeight trustless * weightFactor numTrustless permissioned + permissioned.length *
        permissionedWeight numPermissioned numTrustless (totalWeight trustless)
      ≤ 2 ^ 23 * 2 ^ 64 * (2 ^ 16 * 2 ^ 23) + 2 ^ 23 * (2 ^ 16 * (2 ^ 23 * 2 ^ 64)) :=
        Nat.add_le_add (Nat.mul_le_mul hstake hfactor) (Nat.mul_le_mul hpermissioned.le hweight)
    _ < 2 ^ 128 := by norm_num

/-! ## When the weights can be computed -/

theorem weightFactor_eq_ok_iff {factor : ℕ} :
    (if permissioned.length > 0 then
        Checked.mul 128 numTrustless.toNat permissioned.length else .ok 1) = Except.ok factor ↔
      weightFactor numTrustless permissioned < 2 ^ 128 ∧
        weightFactor numTrustless permissioned = factor := by
  rw [weightFactor]
  split
  · exact Checked.mul_eq_ok_iff
  · simp

theorem permissionedWeight_eq_ok_iff {totalStake weight : ℕ} :
    (if totalStake > 0 ∧ numTrustless > 0 then
        Checked.mul 128 numPermissioned.toNat totalStake else .ok 1) = Except.ok weight ↔
      permissionedWeight numPermissioned numTrustless totalStake < 2 ^ 128 ∧
        permissionedWeight numPermissioned numTrustless totalStake = weight := by
  rw [permissionedWeight]
  split
  · exact Checked.mul_eq_ok_iff
  · simp

variable {weighted : List (α × Weight)}

theorem mapM_mul_eq_ok_iff {factor : ℕ} :
    (trustless.mapM fun (candidate, weight) => do
        let weight ← Checked.mul 128 weight factor
        .ok (candidate, weight)) = Except.ok weighted ↔
      (∀ candidate ∈ trustless, candidate.2 * factor < 2 ^ 128) ∧
        trustless.map (fun (candidate, weight) => (candidate, weight * factor)) = weighted := by
  induction trustless generalizing weighted with
  | nil => simp [eq_comm]
  | cons candidate trustless ih =>
      simp only [List.mapM_cons, Fallible.bind_eq_ok_iff, Checked.mul_eq_ok_iff, ih,
        List.forall_mem_cons, List.map_cons]
      constructor
      · rintro ⟨_, ⟨_, ⟨hlt, rfl⟩, h⟩, _, ⟨hrest, rfl⟩, hweighted⟩
        cases h
        cases hweighted
        exact ⟨⟨hlt, hrest⟩, rfl⟩
      · rintro ⟨⟨hlt, hrest⟩, rfl⟩
        exact ⟨_, ⟨_, ⟨hlt, rfl⟩, rfl⟩, _, ⟨hrest, rfl⟩, rfl⟩

theorem trustlessCandidatesWithWeights_eq_ok_iff :
    trustlessCandidatesWithWeights trustless numTrustless permissioned.length = .ok weighted ↔
      weightFactor numTrustless permissioned < 2 ^ 128 ∧
        (∀ candidate ∈ weightedTrustless numTrustless trustless permissioned,
          candidate.2 < 2 ^ 128) ∧
        weightedTrustless numTrustless trustless permissioned = weighted := by
  simp only [trustlessCandidatesWithWeights, Fallible.bind_eq_ok_iff, weightFactor_eq_ok_iff,
    mapM_mul_eq_ok_iff, weightedTrustless, List.forall_mem_map]
  constructor
  · rintro ⟨_, ⟨hfactor, rfl⟩, hrest⟩
    exact ⟨hfactor, hrest⟩
  · rintro ⟨hfactor, hrest⟩
    exact ⟨_, ⟨hfactor, rfl⟩, hrest⟩

theorem Fits.trustlessCandidatesWithWeights_eq
    (hfits : Fits numTrustless numPermissioned trustless permissioned) :
    trustlessCandidatesWithWeights trustless numTrustless permissioned.length =
      .ok (weightedTrustless numTrustless trustless permissioned) := by
  refine trustlessCandidatesWithWeights_eq_ok_iff.mpr ⟨hfits.factor, ?_, rfl⟩
  intro candidate hmem
  have hle : candidate.2 ≤ totalWeight (weightedTrustless numTrustless trustless permissioned) :=
    List.le_sum_of_mem (List.mem_map_of_mem hmem)
  exact (hle.trans (Nat.le_add_right _ _)).trans_lt hfits.total

theorem permissionedCandidatesWithWeights_eq_ok_iff :
    permissionedCandidatesWithWeights permissioned numPermissioned numTrustless
        (totalWeight trustless) = .ok weighted ↔
      permissionedWeight numPermissioned numTrustless (totalWeight trustless) < 2 ^ 128 ∧
        weightedPermissioned numPermissioned numTrustless trustless permissioned = weighted := by
  simp only [permissionedCandidatesWithWeights, Fallible.bind_eq_ok_iff,
    permissionedWeight_eq_ok_iff, weightedPermissioned]
  constructor
  · rintro ⟨_, ⟨hweight, rfl⟩, h⟩
    exact ⟨hweight, Except.ok.inj h⟩
  · rintro ⟨hweight, rfl⟩
    exact ⟨_, ⟨hweight, rfl⟩, rfl⟩

theorem Fits.permissionedCandidatesWithWeights_eq
    (hfits : Fits numTrustless numPermissioned trustless permissioned) :
    permissionedCandidatesWithWeights permissioned numPermissioned numTrustless
        (totalWeight trustless) =
      .ok (weightedPermissioned numPermissioned numTrustless trustless permissioned) :=
  permissionedCandidatesWithWeights_eq_ok_iff.mpr ⟨hfits.weight, rfl⟩

/-! ## The law -/

section Law

variable [LinearOrder α] {rng : Rng} {seed : Seed}

/-- The weights are computed, the selection returns, it returns nothing exactly when there are
seats and nobody to choose from, and what it returns is a whole committee. -/
structure AriadneLaw (rng : Rng) (numTrustless numPermissioned : UInt16)
    (trustless : List (α × Weight)) (permissioned : List α) (seed : Seed)
    (weighted weighted' : List (α × Weight)) (result : Option (List α)) : Prop where
  trustless_weights : trustlessCandidatesWithWeights trustless numTrustless permissioned.length =
    .ok weighted
  permissioned_weights : permissionedCandidatesWithWeights permissioned numPermissioned
    numTrustless (totalWeight trustless) = .ok weighted'
  returns : selectAuthorities rng numTrustless numPermissioned trustless permissioned seed =
    .ok result
  none_iff : result = none ↔
    0 < numTrustless.toNat + numPermissioned.toNat ∧ trustless = [] ∧ permissioned = []
  committee : ∀ committee, result = some committee →
    committee.length = numTrustless.toNat + numPermissioned.toNat ∧
      ∀ member ∈ committee, member ∈ trustless.map (·.1) ∨ member ∈ permissioned
  ratio : trustless ≠ [] → permissioned ≠ [] → 0 < numTrustless → 0 < numPermissioned →
    (totalWeight weighted : ℚ) / totalWeight weighted' =
      numTrustless.toNat / numPermissioned.toNat ∧ 0 < totalWeight weighted'

theorem fits_of_selectAuthorities {result : Option (List α)}
    (h : selectAuthorities rng numTrustless numPermissioned trustless permissioned seed =
      .ok result) : Fits numTrustless numPermissioned trustless permissioned := by
  simp only [selectAuthorities, Fallible.bind_eq_ok_iff, Checked.sum_eq_ok_iff] at h
  obtain ⟨_, hseats, _, ⟨hstake, rfl⟩, _, htrustless, _, hpermissioned, hselect⟩ := h
  obtain ⟨hfactor, -, rfl⟩ := trustlessCandidatesWithWeights_eq_ok_iff.mp htrustless
  obtain ⟨hweight, rfl⟩ := permissionedCandidatesWithWeights_eq_ok_iff.mp hpermissioned
  refine ⟨(Checked.narrow_eq_ok_iff.mp hseats).1, hstake, hfactor, hweight, ?_⟩
  by_contra hle
  rw [← totalWeight_append, ← totalWeight_perm (List.mergeSort_perm _ candidateLe),
    not_lt] at hle
  rw [WeightedRandom.selectAuthorities_of_le rng hle] at hselect
  cases hselect

theorem selectAuthorities_of_fits (rng : Rng) (seed : Seed)
    (hfits : Fits numTrustless numPermissioned trustless permissioned) :
    selectAuthorities rng numTrustless numPermissioned trustless permissioned seed =
      WeightedRandom.selectAuthorities rng
        ((weightedTrustless numTrustless trustless permissioned ++ weightedPermissioned
          numPermissioned numTrustless trustless permissioned).mergeSort candidateLe) seed
        (numTrustless.toNat + numPermissioned.toNat) := by
  have hstake : Checked.sum 128 (trustless.map (·.2)) = .ok (totalWeight trustless) :=
    Checked.sum_of_lt hfits.stake
  rw [selectAuthorities, Checked.add_of_lt hfits.seats, Fallible.ok_bind, hstake,
    Fallible.ok_bind, hfits.trustlessCandidatesWithWeights_eq, Fallible.ok_bind,
    hfits.permissionedCandidatesWithWeights_eq, Fallible.ok_bind]

theorem ariadneLaw_of_fits (hweights : StakeWeights trustless)
    (hfits : Fits numTrustless numPermissioned trustless permissioned) :
    ∃ result, AriadneLaw rng numTrustless numPermissioned trustless permissioned seed
      (weightedTrustless numTrustless trustless permissioned)
      (weightedPermissioned numPermissioned numTrustless trustless permissioned) result := by
  have hperm := List.mergeSort_perm (weightedTrustless numTrustless trustless permissioned ++
    weightedPermissioned numPermissioned numTrustless trustless permissioned) candidateLe
  have hselect := selectAuthorities_of_fits rng seed hfits
  by_cases hnone : 0 < numTrustless.toNat + numPermissioned.toNat ∧ trustless = [] ∧
      permissioned = []
  · obtain ⟨hseats, rfl, rfl⟩ := hnone
    have hempty : (weightedTrustless numTrustless ([] : List (α × Weight)) [] ++
        weightedPermissioned numPermissioned numTrustless [] []).mergeSort candidateLe = [] :=
      List.mergeSort_nil
    rw [hempty, WeightedRandom.selectAuthorities_nil rng seed hseats] at hselect
    exact ⟨none, hfits.trustlessCandidatesWithWeights_eq,
      hfits.permissionedCandidatesWithWeights_eq, hselect, by simp [hseats], by simp, by simp⟩
  · have hpos : numTrustless.toNat + numPermissioned.toNat = 0 ∨ 0 < totalWeight
        ((weightedTrustless numTrustless trustless permissioned ++ weightedPermissioned
          numPermissioned numTrustless trustless permissioned).mergeSort candidateLe) := by
      rw [totalWeight_perm hperm, totalWeight_append]
      by_cases hseats : numTrustless.toNat + numPermissioned.toNat = 0
      · exact .inl hseats
      · exact .inr (totalWeight_pos hweights fun h => hnone ⟨Nat.pos_of_ne_zero hseats, h⟩)
    obtain ⟨drawn, hdraws, hlength, hdrawn⟩ := WeightedRandom.selectAuthorities_of_lt rng
      (by rw [totalWeight_perm hperm, totalWeight_append]; exact hfits.total) hpos seed
    refine ⟨some drawn, hfits.trustlessCandidatesWithWeights_eq,
      hfits.permissionedCandidatesWithWeights_eq, hselect.trans hdrawn, by simpa using hnone, ?_,
      ratio_eq hweights⟩
    rintro _ ⟨⟩
    refine ⟨hlength, fun member hmember => ?_⟩
    rw [← List.mem_append, ← map_fst_weighted]
    exact (hperm.map _).mem_iff.mp (hdraws.mem hmember)

/-- The law of the original selection holds exactly when everything that is computed fits its
type. -/
theorem ariadneLaw_iff_fits (rng : Rng) (numTrustless numPermissioned : UInt16)
    (trustless : List (α × Weight)) (permissioned : List α) (seed : Seed)
    (hweights : StakeWeights trustless) :
    (∃ weighted weighted' result, AriadneLaw rng numTrustless numPermissioned trustless
      permissioned seed weighted weighted' result) ↔
      Fits numTrustless numPermissioned trustless permissioned := by
  constructor
  · rintro ⟨_, _, _, hlaw⟩
    exact fits_of_selectAuthorities hlaw.returns
  · intro hfits
    exact ⟨_, _, ariadneLaw_of_fits hweights hfits⟩

/-- Two trustless seats and one permissioned seat. -/
theorem ariadneLaw_iff_fits_three_seats :
    ∃ weighted weighted' result, AriadneLaw zeroRng 2 1 [(0, 5), (1, 7)] [2] (.filled 32 0)
      weighted weighted' result :=
  (ariadneLaw_iff_fits zeroRng 2 1 [(0, 5), (1, 7)] [2] (.filled 32 0)
    (by simp [StakeWeights])).mpr ⟨by decide, by decide, by decide, by decide, by decide⟩

/-- The sum of the two numbers of seats overflows. -/
theorem ariadne_fails_at_65536_seats :
    StakeWeights [((7 : ℕ), 1000)] ∧
      selectAuthorities zeroRng 65535 1 [(7, 1000)] [8] (.filled 32 0) =
        .error ⟨"attempt to add with overflow"⟩ ∧
      ¬ ∃ weighted weighted' result, AriadneLaw zeroRng 65535 1 [(7, 1000)] [8] (.filled 32 0)
        weighted weighted' result := by
  have herror : selectAuthorities zeroRng 65535 1 [((7 : ℕ), 1000)] [8] (.filled 32 0) =
      .error ⟨"attempt to add with overflow"⟩ := by
    rw [selectAuthorities, Checked.add_of_le (by decide)]
    rfl
  refine ⟨by simp [StakeWeights], herror, ?_⟩
  rintro ⟨_, _, _, hlaw⟩
  have hreturns := hlaw.returns
  rw [herror] at hreturns
  cases hreturns

end Law

end PartnerChains.Selection.Ariadne
