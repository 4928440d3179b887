import PartnerChains.Library.Apportionment
import PartnerChains.Library.CumulativeWeight
import PartnerChains.Algorithm.Selection

/-!
# When the draws of one group succeed, and what they give

A draw never fails once the weights can be added up, because the random number is below
their total.
-/

namespace PartnerChains.Selection

variable {α : Type}

def totalWeight (candidates : List (α × Weight)) : ℕ := (candidates.map (·.2)).sum

/-! ## Weighted random selection -/

namespace WeightedRandom

/-- The candidate that is found owns the interval of the random number. -/
theorem findByCumulativeWeight_of_lt {randomNumber : ℕ} (candidates : List (α × Weight))
    (index cumulativeWeight : ℕ) (hle : cumulativeWeight ≤ randomNumber)
    (hlt : randomNumber < cumulativeWeight + totalWeight candidates)
    (hfits : cumulativeWeight + totalWeight candidates < 2 ^ 128) :
    ∃ offset < candidates.length,
      findByCumulativeWeight randomNumber index cumulativeWeight candidates =
        .ok (index + offset) ∧
      candidates[offset]?.map (·.1) =
        CumulativeWeight.owner candidates (randomNumber - cumulativeWeight) := by
  induction candidates generalizing index cumulativeWeight with
  | nil =>
      simp only [totalWeight, List.map_nil, List.sum_nil, Nat.add_zero] at hlt
      omega
  | cons candidate candidates ih =>
      obtain ⟨member, weight⟩ := candidate
      simp only [totalWeight, List.map_cons, List.sum_cons] at hlt hfits
      have hadd : Checked.add 128 cumulativeWeight weight = .ok (cumulativeWeight + weight) :=
        Checked.add_of_lt (by omega)
      simp only [findByCumulativeWeight, hadd, Fallible.ok_bind, CumulativeWeight.owner]
      by_cases hfound : cumulativeWeight + weight > randomNumber
      · have hhead : randomNumber - cumulativeWeight < weight := by omega
        exact ⟨0, by simp, by simp [hfound], by simp [hhead]⟩
      · obtain ⟨offset, hoffset, hrest, howner⟩ := ih (index + 1) (cumulativeWeight + weight)
          (by omega) (by simp only [totalWeight]; omega) (by simp only [totalWeight]; omega)
        have hhead : ¬ randomNumber - cumulativeWeight < weight := by omega
        refine ⟨offset + 1, by simpa using hoffset, ?_, ?_⟩
        · rw [if_neg hfound, hrest, Nat.add_assoc, Nat.add_comm 1 offset]
        · rw [if_neg hhead, Nat.sub_sub, ← howner]
          rfl

def selectedBy (candidates : List (α × Weight)) (draw : ℕ) : Option α := do
  let index ← (findByCumulativeWeight draw 0 0 candidates).toOption
  candidates[index]?.map (·.1)

/-- The members that a sequence of random numbers selects, one for each. -/
def DrawnBy (candidates : List (α × Weight)) (draws : List ℕ) (drawn : List α) : Prop :=
  draws.map (selectedBy candidates) = drawn.map some

variable {candidates : List (α × Weight)}

theorem DrawnBy.mem {draws : List ℕ} {drawn : List α} (h : DrawnBy candidates draws drawn)
    {member : α} (hmember : member ∈ drawn) :
    member ∈ candidates.map (·.1) := by
  obtain ⟨draw, -, hselected⟩ := List.mem_map.mp (h ▸ List.mem_map_of_mem hmember)
  obtain ⟨index, -, hcandidate⟩ := Option.bind_eq_some_iff.mp hselected
  obtain ⟨candidate, hget, rfl⟩ := Option.map_eq_some_iff.mp hcandidate
  exact List.mem_map_of_mem (List.mem_of_getElem? hget)

variable (rng : Rng)

def randomNumbers (bound : ℕ) : (count : ℕ) → rng.State → List ℕ
  | 0, _ => []
  | count + 1, rand =>
      (rng.randomRange bound rand).1 :: randomNumbers bound count (rng.randomRange bound rand).2

theorem length_randomNumbers (bound count : ℕ) (rand : rng.State) :
    (randomNumbers rng bound count rand).length = count := by
  induction count generalizing rand with
  | zero => rfl
  | succ count ih => rw [randomNumbers, List.length_cons, ih]

theorem selectWithWeight_of_pos (hpos : 0 < totalWeight candidates)
    (hfits : totalWeight candidates < 2 ^ 128) (rand : rng.State) :
    ∃ index member, candidates[index]?.map (·.1) = some member ∧
      selectedBy candidates (rng.randomRange (totalWeight candidates) rand).1 = some member ∧
      selectWithWeight rng candidates (totalWeight candidates) rand =
        .ok (index, (rng.randomRange (totalWeight candidates) rand).2) := by
  have hlt := rng.randomRange_lt (totalWeight candidates) rand hpos
  obtain ⟨index, hindex, hfind, -⟩ := findByCumulativeWeight_of_lt candidates 0 0
    (Nat.zero_le _) (by simpa using hlt) (by simpa using hfits)
  rw [Nat.zero_add] at hfind
  refine ⟨index, candidates[index].1, by simp [hindex], ?_, ?_⟩
  · simp [selectedBy, hfind, Except.toOption, hindex]
  · simp [selectWithWeight, hpos.ne', hfind]

/-- The loop fills each seat with the candidate that its random number selects. -/
theorem fillSeats_of_pos (hpos : 0 < totalWeight candidates)
    (hfits : totalWeight candidates < 2 ^ 128) (missing : ℕ) (rand : rng.State)
    (committee : List α) :
    ∃ drawn,
      DrawnBy candidates (randomNumbers rng (totalWeight candidates) missing rand) drawn ∧
      fillSeats rng candidates (totalWeight candidates) missing rand committee =
        .ok (committee ++ drawn) := by
  have hne : candidates.isEmpty = false := by
    cases candidates with
    | nil => simp [totalWeight] at hpos
    | cons => rfl
  induction missing generalizing rand committee with
  | zero => exact ⟨[], rfl, by simp [fillSeats]⟩
  | succ missing ih =>
      obtain ⟨index, member, hmember, hselected, hselect⟩ :=
        selectWithWeight_of_pos rng hpos hfits rand
      obtain ⟨drawn, hdrawn, hfill⟩ := ih (rng.randomRange (totalWeight candidates) rand).2
        (committee ++ [member])
      obtain ⟨⟨_, weight⟩, hget, rfl⟩ := Option.map_eq_some_iff.mp hmember
      refine ⟨_ :: drawn, congrArg₂ List.cons hselected hdrawn, ?_⟩
      simp [fillSeats, hne, hselect, hget, hfill]

/-- A draw fills every seat, unless there are seats but no weight. -/
theorem selectAuthorities_of_lt (hfits : totalWeight candidates < 2 ^ 128) {size : ℕ}
    (hpos : size = 0 ∨ 0 < totalWeight candidates) (seed : Seed) :
    ∃ drawn,
      DrawnBy candidates
        (randomNumbers rng (totalWeight candidates) size (rng.fromSeed seed)) drawn ∧
      drawn.length = size ∧
      selectAuthorities rng candidates seed size = .ok (some drawn) := by
  have hsum : Checked.sum 128 (candidates.map (·.2)) = .ok (totalWeight candidates) :=
    Checked.sum_of_lt hfits
  rcases hpos with rfl | hpos
  · exact ⟨[], rfl, rfl, by simp [selectAuthorities, hsum, fillSeats]⟩
  · obtain ⟨drawn, hdrawn, hfill⟩ :=
      fillSeats_of_pos rng hpos hfits size (rng.fromSeed seed) []
    have hlength : drawn.length = size := by
      have hlengths := congrArg List.length hdrawn
      rwa [List.length_map, List.length_map, length_randomNumbers, eq_comm] at hlengths
    refine ⟨drawn, hdrawn, hlength, ?_⟩
    simp [selectAuthorities, hsum, hfill, hlength]

theorem selectAuthorities_nil (seed : Seed) {size : ℕ} (hsize : 0 < size) :
    selectAuthorities rng ([] : List (α × Weight)) seed size = .ok none := by
  cases size with
  | zero => cases hsize
  | succ size => rfl

theorem selectAuthorities_of_le (h : 2 ^ 128 ≤ totalWeight candidates) (seed : Seed) (size : ℕ) :
    selectAuthorities rng candidates seed size =
      .error ⟨"attempt to add with overflow"⟩ := by
  have hsum : Checked.sum 128 (candidates.map (·.2)) =
      .error ⟨"attempt to add with overflow"⟩ := Checked.sum_of_le h
  simp [selectAuthorities, hsum]

end WeightedRandom

/-! ## Guaranteed seats -/

namespace AriadneV2

/-- The seats that are guaranteed to a candidate with the given weight. -/
def guaranteedSeats (total n : ℕ) (candidate : α × Weight) : ℕ := candidate.2 * n / total

def guaranteed (total n : ℕ) (candidates : List (α × Weight)) : List α :=
  candidates.flatMap fun candidate =>
    List.replicate (guaranteedSeats total n candidate) candidate.1

/-- The weights that take part in the draw for the rest. -/
def remainders (total n : ℕ) (candidates : List (α × Weight)) : List (α × Weight) :=
  (candidates.map fun candidate => (candidate.1, candidate.2 * n % total)).filter
    fun candidate => candidate.2 > 0

variable {candidate : α × Weight} {total n : ℕ}

theorem assignGuaranteed_of_lt (hpos : 0 < total) (hmul : candidate.2 * n < 2 ^ 128)
    (hshare : guaranteedSeats total n candidate < 2 ^ 64) (result : SelectGuaranteedResult α) :
    assignGuaranteed total n result candidate =
      .ok { selected := result.selected ++ guaranteed total n [candidate]
            remaining := result.remaining ++ remainders total n [candidate] } := by
  have hnarrow : Checked.narrow 64 "fits u16" (candidate.2 * n / total) =
      .ok (candidate.2 * n / total) := Checked.narrow_of_lt _ hshare
  simp only [assignGuaranteed, Checked.mul_of_lt hmul, Checked.div_of_pos hpos, hnarrow,
    Checked.rem_of_pos hpos, Fallible.ok_bind]
  by_cases hrem : candidate.2 * n % total > 0
  · simp [guaranteed, guaranteedSeats, remainders, hrem]
  · simp [guaranteed, guaranteedSeats, remainders, hrem]

theorem foldlM_assignGuaranteed (hpos : 0 < total) (candidates : List (α × Weight))
    (hmul : ∀ c ∈ candidates, c.2 * n < 2 ^ 128)
    (hshare : ∀ c ∈ candidates, guaranteedSeats total n c < 2 ^ 64)
    (result : SelectGuaranteedResult α) :
    candidates.foldlM (assignGuaranteed total n) result =
      .ok { selected := result.selected ++ guaranteed total n candidates
            remaining := result.remaining ++ remainders total n candidates } := by
  induction candidates generalizing result with
  | nil => simp [guaranteed, remainders]
  | cons candidate candidates ih =>
      rw [List.foldlM_cons, assignGuaranteed_of_lt hpos (hmul _ List.mem_cons_self)
        (hshare _ List.mem_cons_self), Fallible.ok_bind,
        ih (fun c hc => hmul c (List.mem_cons_of_mem _ hc))
          (fun c hc => hshare c (List.mem_cons_of_mem _ hc))]
      by_cases hrem : candidate.2 * n % total > 0 <;> simp [guaranteed, remainders, hrem]

/-- What a candidate was assigned, whatever its weight. -/
theorem eq_of_assignGuaranteed {result result' : SelectGuaranteedResult α}
    (h : assignGuaranteed total n result candidate = .ok result') :
    result' = { selected := result.selected ++ guaranteed total n [candidate]
                remaining := result.remaining ++ remainders total n [candidate] } := by
  simp only [assignGuaranteed, Fallible.bind_eq_ok_iff, Checked.mul_eq_ok_iff,
    Checked.div_eq_ok_iff, Checked.narrow_eq_ok_iff, Checked.rem_eq_ok_iff] at h
  obtain ⟨_, ⟨-, rfl⟩, _, ⟨-, rfl⟩, _, ⟨-, rfl⟩, _, ⟨-, rfl⟩, h⟩ := h
  rw [← Except.ok.inj h]
  by_cases hrem : candidate.2 * n % total > 0
  · simp [guaranteed, guaranteedSeats, remainders, hrem]
  · simp [guaranteed, guaranteedSeats, remainders, hrem]

theorem eq_of_foldlM_assignGuaranteed {candidates : List (α × Weight)}
    {result result' : SelectGuaranteedResult α}
    (h : candidates.foldlM (assignGuaranteed total n) result = .ok result') :
    result' = { selected := result.selected ++ guaranteed total n candidates
                remaining := result.remaining ++ remainders total n candidates } := by
  induction candidates generalizing result with
  | nil =>
      rw [← Except.ok.inj h]
      simp [guaranteed, remainders]
  | cons candidate candidates ih =>
      rw [List.foldlM_cons, Fallible.bind_eq_ok_iff] at h
      obtain ⟨next, hnext, hrest⟩ := h
      rw [ih hrest, eq_of_assignGuaranteed hnext]
      by_cases hrem : candidate.2 * n % total > 0 <;> simp [guaranteed, remainders, hrem]

/-- Candidates without weight get nothing and do not take part in the draw. -/
theorem guaranteed_filter_pos (total n : ℕ) (candidates : List (α × Weight)) :
    guaranteed total n (candidates.filter fun candidate => candidate.2 > 0) =
      guaranteed total n candidates := by
  induction candidates with
  | nil => rfl
  | cons candidate candidates ih =>
      by_cases hpos : candidate.2 > 0
      · simp_all [guaranteed]
      · simp_all [guaranteed, guaranteedSeats]

theorem remainders_filter_pos (total n : ℕ) (candidates : List (α × Weight)) :
    remainders total n (candidates.filter fun candidate => candidate.2 > 0) =
      remainders total n candidates := by
  induction candidates with
  | nil => rfl
  | cons candidate candidates ih =>
      by_cases hpos : candidate.2 > 0
      · simp_all [remainders, List.filter_cons]
      · simp_all [remainders]

theorem eq_of_selectGuaranteed {candidates : List (α × Weight)} {n : ℕ}
    {result : SelectGuaranteedResult α} (h : selectGuaranteed candidates n = .ok result) :
    result = ⟨guaranteed (totalWeight candidates) n candidates,
      remainders (totalWeight candidates) n candidates⟩ := by
  obtain ⟨_, hsum, hfold⟩ := Fallible.bind_eq_ok_iff.mp h
  obtain ⟨-, rfl⟩ := Checked.sum_eq_ok_iff.mp hsum
  rw [eq_of_foldlM_assignGuaranteed hfold, guaranteed_filter_pos, remainders_filter_pos]
  rfl

theorem length_guaranteed (total n : ℕ) (candidates : List (α × Weight)) :
    (guaranteed total n candidates).length =
      ((candidates.map (·.2)).map fun w => w * n / total).sum := by
  simp [guaranteed, guaranteedSeats, List.length_flatMap, Function.comp_def]

theorem totalWeight_remainders (total n : ℕ) (candidates : List (α × Weight)) :
    totalWeight (remainders total n candidates) =
      ((candidates.map (·.2)).map fun w => w * n % total).sum := by
  induction candidates with
  | nil => rfl
  | cons candidate candidates ih =>
      simp only [totalWeight, remainders, List.map_cons, List.sum_cons] at ih ⊢
      by_cases hrem : candidate.2 * n % total > 0
      · rw [List.filter_cons_of_pos (by simpa using hrem), List.map_cons, List.sum_cons, ih]
      · rw [List.filter_cons_of_neg (by simpa using hrem), ih, Nat.eq_zero_of_not_pos hrem,
          Nat.zero_add]

theorem mem_guaranteed {candidates : List (α × Weight)} {member : α}
    (h : member ∈ guaranteed total n candidates) : member ∈ candidates.map (·.1) := by
  obtain ⟨candidate, hcandidate, hmember⟩ := List.mem_flatMap.mp h
  rw [List.eq_of_mem_replicate hmember]
  exact List.mem_map_of_mem hcandidate

theorem mem_remainders {candidates : List (α × Weight)} {member : α}
    (h : member ∈ (remainders total n candidates).map (·.1)) :
    member ∈ candidates.map (·.1) := by
  obtain ⟨remainder, hremainder, rfl⟩ := List.mem_map.mp h
  obtain ⟨candidate, hcandidate, rfl⟩ := List.mem_map.mp (List.mem_of_mem_filter hremainder)
  exact List.mem_map.mpr ⟨candidate, hcandidate, rfl⟩

theorem guaranteedSeats_le_count [DecidableEq α] (total n : ℕ) {candidates : List (α × Weight)}
    (h : candidate ∈ candidates) :
    guaranteedSeats total n candidate ≤ (guaranteed total n candidates).count candidate.1 := by
  rw [guaranteed, List.count_flatMap]
  have hself : guaranteedSeats total n candidate = (List.replicate
      (guaranteedSeats total n candidate) candidate.1).count candidate.1 := by simp
  rw [hself]
  exact List.le_sum_of_mem (List.mem_map_of_mem h)

end AriadneV2

end PartnerChains.Selection
