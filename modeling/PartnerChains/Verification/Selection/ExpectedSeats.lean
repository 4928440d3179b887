import PartnerChains.Verification.Selection.Seats

/-!
# Expected seats are proportional

The guaranteed seats of a candidate and its part of the seats that are drawn add up to its exact
share of all seats. Nothing is lost by rounding, as the remainders are the weights of the draw.
-/

namespace PartnerChains.Selection.AriadneV2

open CumulativeWeight
open WeightedRandom (selectedBy)

variable {α : Type}

/-! ## Seats of one candidate -/

theorem weightOf_remainders_cons [DecidableEq α] (total n : ℕ) (candidate : α × Weight)
    (candidates : List (α × Weight)) (member : α) :
    weightOf (remainders total n (candidate :: candidates)) member =
      (if candidate.1 = member then candidate.2 * n % total else 0) +
        weightOf (remainders total n candidates) member := by
  by_cases hrem : candidate.2 * n % total > 0
  · simp [remainders, hrem, weightOf_cons]
  · simp [remainders, Nat.eq_zero_of_not_pos hrem]

/-- Guaranteed seats count as much as the total weight each, and the remainders make up the
rest. -/
theorem count_guaranteed_add_weightOf_remainders [DecidableEq α] (total n : ℕ)
    (candidates : List (α × Weight)) (member : α) :
    total * (guaranteed total n candidates).count member +
        weightOf (remainders total n candidates) member =
      weightOf candidates member * n := by
  induction candidates with
  | nil => simp [guaranteed, remainders, weightOf, CumulativeWeight.total]
  | cons candidate candidates ih =>
      have hshare := Nat.div_add_mod (candidate.2 * n) total
      rw [weightOf_remainders_cons, weightOf_cons, Nat.add_mul, ← ih]
      simp only [guaranteed, guaranteedSeats, List.flatMap_cons, List.count_append,
        List.count_replicate, Nat.mul_add] at hshare ⊢
      by_cases h : candidate.1 = member
      · simp [h]
        omega
      · simp [h]

/-! ## Draws -/

theorem selectedBy_eq_owner {candidates : List (α × Weight)} {draw : ℕ}
    (hfits : totalWeight candidates < 2 ^ 128) (hdraw : draw < totalWeight candidates) :
    selectedBy candidates draw = owner candidates draw := by
  obtain ⟨index, -, hfind, howner⟩ := WeightedRandom.findByCumulativeWeight_of_lt candidates 0 0
    (Nat.zero_le draw) (by omega) (by omega)
  rw [Nat.zero_add] at hfind
  rw [Nat.sub_zero] at howner
  rw [selectedBy, hfind, ← howner]
  rfl

section Shares

variable [DecidableEq α]

/-- The number of values of a draw that select a candidate. -/
def selectingDraws (candidates : List (α × Weight)) (member : α) : ℕ :=
  ((Finset.range (totalWeight candidates)).filter
    fun draw => selectedBy candidates draw = some member).card

theorem selectingDraws_eq {candidates : List (α × Weight)}
    (hfits : totalWeight candidates < 2 ^ 128) (member : α) :
    selectingDraws candidates member = weightOf candidates member := by
  rw [← card_ownedNumbers, selectingDraws, ownedNumbers]
  congr 1
  refine Finset.filter_congr fun draw hdraw => ?_
  rw [selectedBy_eq_owner hfits (Finset.mem_range.mp hdraw)]

/-! ## Exact shares -/

/-- What is asked of the two parts of a selection of `n` seats: the weights that are left can be
added up, there is something to draw when seats are left, every draw selects a candidate, and
guaranteed and drawn seats are the exact share. -/
structure ExactShares (candidates : List (α × Weight)) (n : ℕ)
    (result : SelectGuaranteedResult α) : Prop where
  summed : Checked.sum 128 (result.remaining.map (·.2)) = .ok (totalWeight result.remaining)
  drawable : n - result.selected.length = 0 ∨ 0 < totalWeight result.remaining
  selects : ∀ draw < totalWeight result.remaining, (selectedBy result.remaining draw).isSome
  share : ∀ member, (result.selected.count member : ℚ) +
      (n - result.selected.length : ℕ) *
        (selectingDraws result.remaining member / totalWeight result.remaining) =
    n * weightOf candidates member / totalWeight candidates

theorem weightOf_perm {candidates candidates' : List (α × Weight)}
    (h : candidates.Perm candidates') (member : α) :
    weightOf candidates member = weightOf candidates' member :=
  ((h.filter _).map _).sum_eq

theorem weightOf_le_totalWeight (candidates : List (α × Weight)) (member : α) :
    weightOf candidates member ≤ totalWeight candidates :=
  ((List.filter_sublist).map _).sum_le_sum fun _ _ => Nat.zero_le _

variable {candidates : List (α × Weight)} {n : ℕ}

/-- Guaranteed and drawn seats together, when `leftover` seats are drawn from a total weight of
`total * leftover`. -/
theorem share_eq {total leftover seats drawn weight : ℕ} (hpos : 0 < total)
    (hshare : total * seats + drawn = weight * n) (hdrawn : drawn ≤ total * leftover) :
    (seats : ℚ) + leftover * (drawn / (total * leftover : ℕ)) = n * weight / total := by
  have htotal : (total : ℚ) ≠ 0 := by exact_mod_cast hpos.ne'
  have hcast : (total : ℚ) * seats + drawn = weight * n := by exact_mod_cast hshare
  rcases Nat.eq_zero_or_pos leftover with rfl | hleft
  · obtain rfl : drawn = 0 := by simpa using hdrawn
    rw [eq_div_iff htotal]
    simp only [Nat.cast_zero, add_zero, zero_mul] at hcast ⊢
    linarith
  · have hleft' : (leftover : ℚ) ≠ 0 := by exact_mod_cast hleft.ne'
    push_cast
    field_simp
    linarith

theorem exactShares_of_fits (hpos : 0 < totalWeight candidates)
    (hfits : totalWeight (remainders (totalWeight candidates) n candidates) < 2 ^ 128) :
    ExactShares candidates n ⟨guaranteed (totalWeight candidates) n candidates,
      remainders (totalWeight candidates) n candidates⟩ := by
  -- the weights of the draw add up to the total weight for each seat that is left
  have htotal : totalWeight (remainders (totalWeight candidates) n candidates) =
      totalWeight candidates *
        (n - (guaranteed (totalWeight candidates) n candidates).length) := by
    rw [totalWeight_remainders, length_guaranteed]
    exact Apportionment.sum_mod_eq hpos
  refine ⟨Checked.sum_of_lt hfits, ?_, ?_, ?_⟩
  · rcases Nat.eq_zero_or_pos (n - (guaranteed (totalWeight candidates) n candidates).length)
      with hnone | hsome
    · exact .inl hnone
    · exact .inr (htotal ▸ Nat.mul_pos hpos hsome)
  · intro draw hdraw
    rw [selectedBy_eq_owner hfits hdraw]
    exact owner_isSome_iff.mpr hdraw
  · intro member
    rw [selectingDraws_eq hfits]
    have hle := weightOf_le_totalWeight
      (remainders (totalWeight candidates) n candidates) member
    rw [htotal] at hle ⊢
    exact share_eq hpos (count_guaranteed_add_weightOf_remainders _ n candidates member) hle

theorem ExactShares.of_perm {sorted : List (α × Weight)} {result : SelectGuaranteedResult α}
    (h : ExactShares sorted n result) (hperm : sorted.Perm candidates) :
    ExactShares candidates n result where
  summed := h.summed
  drawable := h.drawable
  selects := h.selects
  share member := by
    rw [h.share member, weightOf_perm hperm, totalWeight_perm hperm]

end Shares

/-! ## All lists of candidates -/

section Candidates

variable [LinearOrder α] {candidates : List (α × Weight)} {n : UInt16}

theorem exists_exactShares (hweights : StakeWeights candidates) (hne : candidates ≠ [])
    (hn : n ≠ 0) (hfits : GroupFits candidates n.toNat) :
    ∃ result, selectGuaranteed (candidates.mergeSort candidateLe) n.toNat = .ok result ∧
      (∀ rng, DrawsRest rng candidates n.toNat result) ∧
      ExactShares candidates n.toNat result := by
  have hperm : (candidates.mergeSort candidateLe).Perm candidates := List.mergeSort_perm _ _
  have hpos := hweights.totalWeight_pos hne
  have hzero : n.toNat ≠ 0 := fun h => hn (UInt16.toNat_inj.mp h)
  obtain ⟨htotal, hremainders⟩ := (hfits.resolve_left hne).resolve_left hzero
  have hselect := selectGuaranteed_of_perm hperm hweights hne n.toNat_lt htotal
  refine ⟨_, hselect, fun rng => ?_, ?_⟩
  · obtain ⟨sorted, -, -, hselect', hdraws⟩ :=
      exists_drawsRest rng hweights hne hzero n.toNat_lt hfits
    rwa [Except.ok.inj (hselect.symm.trans hselect')]
  · rw [← totalWeight_remainders_perm hperm] at hremainders
    rw [← totalWeight_perm hperm] at hpos hremainders ⊢
    exact (exactShares_of_fits hpos hremainders).of_perm hperm

/-- A sum that does not fit is never formed. -/
theorem groupFits_of_exactShares (hweights : StakeWeights candidates)
    {result : SelectGuaranteedResult α}
    (hresult : selectGuaranteed (candidates.mergeSort candidateLe) n.toNat = .ok result)
    (hshares : ExactShares candidates n.toNat result) : GroupFits candidates n.toNat := by
  have hperm : (candidates.mergeSort candidateLe).Perm candidates := List.mergeSort_perm _ _
  by_cases hne : candidates = []
  · exact .inl hne
  have htotal : totalWeight candidates < 2 ^ 128 := by
    by_contra hle
    rw [← totalWeight_perm hperm, not_lt] at hle
    have hsum : Checked.sum 128 ((candidates.mergeSort candidateLe).map (·.2)) =
        .error ⟨"attempt to add with overflow"⟩ := Checked.sum_of_le hle
    simp [selectGuaranteed, hsum] at hresult
  have hselect := selectGuaranteed_of_perm hperm hweights hne n.toNat_lt htotal
  obtain rfl := Except.ok.inj (hselect.symm.trans hresult)
  refine .inr (.inr ⟨htotal, ?_⟩)
  by_contra hle
  rw [← totalWeight_remainders_perm hperm, not_lt] at hle
  have hsum := hshares.summed
  rw [Checked.sum_of_le hle] at hsum
  cases hsum

/-- The seats that are not guaranteed are drawn from the remainders, and the expected number of
seats is exactly proportional to the weight, whenever the sums of the weights fit their type. -/
theorem expected_seats_exact_iff (candidates : List (α × Weight)) (n : UInt16)
    (hweights : StakeWeights candidates) (hne : candidates ≠ []) (hn : n ≠ 0) :
    (∃ result, selectGuaranteed (candidates.mergeSort candidateLe) n.toNat = .ok result ∧
      (∀ rng, DrawsRest rng candidates n.toNat result) ∧
      ExactShares candidates n.toNat result) ↔ GroupFits candidates n.toNat := by
  constructor
  · rintro ⟨result, hresult, -, hshares⟩
    exact groupFits_of_exactShares hweights hresult hshares
  · exact exists_exactShares hweights hne hn

end Candidates

/-- Three seats for weights of five and three. -/
theorem expected_seats_exact_iff_three_seats :
    ∃ result, selectGuaranteed ([(0, 5), (1, 3)].mergeSort candidateLe) 3 = .ok result ∧
      (∀ rng, DrawsRest rng [(0, 5), (1, 3)] 3 result) ∧
      ExactShares [(0, 5), (1, 3)] 3 result :=
  (expected_seats_exact_iff [(0, 5), (1, 3)] 3 (by simp [StakeWeights]) (by simp)
    (by decide)).mpr (groupFits_of_length_lt (by simp [StakeWeights]) (by simp) (by decide))

/-- So many candidates, each of the greatest weight. -/
def heaviestCandidates (count : ℕ) : List (ℕ × Weight) := List.replicate count (0, 2 ^ 64 - 1)

theorem stakeWeights_heaviestCandidates (count : ℕ) : StakeWeights (heaviestCandidates count) := by
  intro candidate hmem
  rw [List.eq_of_mem_replicate hmem]
  norm_num

theorem totalWeight_heaviestCandidates (count : ℕ) :
    totalWeight (heaviestCandidates count) = count * (2 ^ 64 - 1) := by
  rw [totalWeight, heaviestCandidates, List.map_replicate, List.sum_replicate, smul_eq_mul]

theorem leftover_heaviestCandidates (count n : ℕ) :
    (((heaviestCandidates count).map (·.2)).map
        fun w => w * n % totalWeight (heaviestCandidates count)).sum =
      count * ((2 ^ 64 - 1) * n % (count * (2 ^ 64 - 1))) := by
  rw [totalWeight_heaviestCandidates, heaviestCandidates, List.map_replicate, List.map_replicate,
    List.sum_replicate, smul_eq_mul]

theorem heaviestCandidates_ne_nil {count : ℕ} (hpos : 0 < count) :
    heaviestCandidates count ≠ [] := by
  rw [heaviestCandidates, Ne, List.replicate_eq_nil_iff]
  exact hpos.ne'

/-- The weights for the draw of 65535 seats add up to more than 128 bits. -/
theorem leftover_weights_overflow :
    StakeWeights (heaviestCandidates (2 ^ 49)) ∧ heaviestCandidates (2 ^ 49) ≠ [] ∧
      (∀ (rng : Rng) (rand : rng.State),
        weightedWithGuaranteedAssignment rng (heaviestCandidates (2 ^ 49)) 65535 rand =
          .error ⟨"attempt to add with overflow"⟩) ∧
      ¬ ∃ result, selectGuaranteed ((heaviestCandidates (2 ^ 49)).mergeSort candidateLe) 65535 =
          .ok result ∧
        ExactShares (heaviestCandidates (2 ^ 49)) 65535 result := by
  have hweights := stakeWeights_heaviestCandidates (2 ^ 49)
  have hne := heaviestCandidates_ne_nil (Nat.two_pow_pos 49)
  have hfits : ¬ GroupFits (heaviestCandidates (2 ^ 49)) 65535 := by
    rintro (hnil | hzero | ⟨-, hsum⟩)
    · exact hne hnil
    · exact absurd hzero (by decide)
    · rw [leftover_heaviestCandidates] at hsum
      exact absurd hsum (by decide)
  refine ⟨hweights, hne, fun rng rand => ?_, ?_⟩
  · exact weightedWithGuaranteedAssignment_of_not_fits rng hweights (by decide) hfits rand
  · rintro ⟨result, hresult, hshares⟩
    exact hfits (groupFits_of_exactShares (n := 65535) hweights hresult hshares)

end PartnerChains.Selection.AriadneV2
