import PartnerChains.Verification.Selection.Draw

/-!
# The seat law

Exactly when the sums of the source fit their types, the committee has all its seats, each
group gets its own, and no candidate gets less than the whole part of its share.
-/

namespace PartnerChains.Selection.AriadneV2

variable {α : Type}

/-! ## One group -/

/-- The sums that are formed for a group fit 128 bits: the weights, and the remainders of
the weights scaled by the number of seats. -/
def GroupFits (candidates : List (α × Weight)) (n : ℕ) : Prop :=
  candidates = [] ∨ n = 0 ∨
    totalWeight candidates < 2 ^ 128 ∧
      ((candidates.map (·.2)).map fun w => w * n % totalWeight candidates).sum < 2 ^ 128

/-- The weights are positive, and they are stakes of 64 bits. -/
def StakeWeights (candidates : List (α × Weight)) : Prop :=
  ∀ candidate ∈ candidates, 0 < candidate.2 ∧ candidate.2 < 2 ^ 64

theorem StakeWeights.totalWeight_pos {candidates : List (α × Weight)}
    (h : StakeWeights candidates) (hne : candidates ≠ []) : 0 < totalWeight candidates := by
  obtain ⟨candidate, hmem⟩ := List.exists_mem_of_ne_nil candidates hne
  have hle : candidate.2 ≤ totalWeight candidates :=
    List.le_sum_of_mem (List.mem_map_of_mem hmem)
  exact (h candidate hmem).1.trans_le hle

/-- Fewer candidates than 2 to the power of 48 always fit. -/
theorem groupFits_of_length_lt {candidates : List (α × Weight)} (h : StakeWeights candidates)
    (hlength : candidates.length < 2 ^ 48) {n : ℕ} (hn : n < 2 ^ 16) :
    GroupFits candidates n := by
  have hbound (f : ℕ → ℕ) (bound : ℕ) (hf : ∀ w < 2 ^ 64, f w ≤ bound) :
      ((candidates.map (·.2)).map f).sum ≤ candidates.length * bound := by
    have hle := List.sum_le_card_nsmul ((candidates.map (·.2)).map f) bound ?_
    · simpa using hle
    · intro x hx
      obtain ⟨w, hw, rfl⟩ := List.mem_map.mp hx
      obtain ⟨candidate, hcandidate, rfl⟩ := List.mem_map.mp hw
      exact hf _ (h candidate hcandidate).2
  refine .inr (.inr ⟨?_, ?_⟩)
  · have hsum := hbound id (2 ^ 64) (fun w hw => hw.le)
    simp only [List.map_id] at hsum
    calc totalWeight candidates ≤ candidates.length * 2 ^ 64 := hsum
      _ < 2 ^ 48 * 2 ^ 64 := by omega
      _ ≤ 2 ^ 128 := by norm_num
  · refine (hbound _ (2 ^ 64 * 2 ^ 16) fun w hw => ?_).trans_lt ?_
    · exact (Nat.mod_le _ _).trans (Nat.mul_le_mul hw.le hn.le)
    · omega

section Group

variable {candidates : List (α × Weight)} {n : ℕ}

theorem selectGuaranteed_of_lt (hweights : StakeWeights candidates) (hne : candidates ≠ [])
    (hn : n < 2 ^ 16) (hfits : totalWeight candidates < 2 ^ 128) :
    selectGuaranteed candidates n =
      .ok ⟨guaranteed (totalWeight candidates) n candidates,
        remainders (totalWeight candidates) n candidates⟩ := by
  have hsum : Checked.sum 128 (candidates.map (·.2)) = .ok (totalWeight candidates) :=
    Checked.sum_of_lt hfits
  have hfilter : (candidates.filter fun candidate => candidate.2 > 0) = candidates := by
    refine List.filter_eq_self.mpr fun candidate hmem => ?_
    simpa using (hweights candidate hmem).1
  have hmul : ∀ candidate ∈ candidates, candidate.2 * n < 2 ^ 128 := by
    intro candidate hmem
    calc candidate.2 * n ≤ 2 ^ 64 * 2 ^ 16 :=
          Nat.mul_le_mul (hweights candidate hmem).2.le hn.le
      _ < 2 ^ 128 := by norm_num
  have hshare : ∀ candidate ∈ candidates,
      guaranteedSeats (totalWeight candidates) n candidate < 2 ^ 64 := by
    intro candidate hmem
    have hle : guaranteedSeats (totalWeight candidates) n candidate ≤ n :=
      Apportionment.div_le_of_mem (List.mem_map_of_mem hmem)
    omega
  rw [selectGuaranteed, hsum, Fallible.ok_bind, hfilter,
    foldlM_assignGuaranteed (hweights.totalWeight_pos hne) candidates hmul hshare]
  rfl

/-- What a group's draw gives. -/
structure GroupDraw [DecidableEq α] (candidates : List (α × Weight)) (n : ℕ)
    (selected : List α) : Prop where
  length_eq : candidates ≠ [] → selected.length = n
  empty : candidates = [] → selected = []
  mem : ∀ member ∈ selected, member ∈ candidates.map (·.1)
  guaranteed_le : ∀ candidate ∈ candidates,
    candidate.2 * n / totalWeight candidates ≤ selected.count candidate.1

theorem totalWeight_perm {candidates' : List (α × Weight)} (h : candidates.Perm candidates') :
    totalWeight candidates = totalWeight candidates' :=
  (h.map _).sum_eq

theorem totalWeight_remainders_perm {sorted : List (α × Weight)}
    (hperm : sorted.Perm candidates) :
    totalWeight (remainders (totalWeight candidates) n sorted) =
      ((candidates.map (·.2)).map fun w => w * n % totalWeight candidates).sum := by
  rw [totalWeight_remainders, ((hperm.map _).map _).sum_eq]

/-- The shares do not depend on the order in which the weights are added up. -/
theorem selectGuaranteed_of_perm {sorted : List (α × Weight)} (hperm : sorted.Perm candidates)
    (hweights : StakeWeights candidates) (hne : candidates ≠ []) (hn : n < 2 ^ 16)
    (hfits : totalWeight candidates < 2 ^ 128) :
    selectGuaranteed sorted n =
      .ok ⟨guaranteed (totalWeight candidates) n sorted,
        remainders (totalWeight candidates) n sorted⟩ := by
  have hsorted : StakeWeights sorted := fun c hc => hweights c (hperm.mem_iff.mp hc)
  have hnil : sorted ≠ [] := fun h => hne (by simpa [h] using hperm.symm)
  rw [← totalWeight_perm hperm] at hfits ⊢
  exact selectGuaranteed_of_lt hsorted hnil hn hfits

variable [LinearOrder α] (rng : Rng)

/-- A group whose weights can be added up gets its guaranteed seats, and the remainders are
drawn for what is left. -/
theorem weightedWithGuaranteedAssignment_eq (hweights : StakeWeights candidates)
    (hne : candidates ≠ []) (hzero : n ≠ 0) (hn : n < 2 ^ 16)
    (hfits : totalWeight candidates < 2 ^ 128) :
    ∃ sorted : List (α × Weight), sorted.Perm candidates ∧
      (guaranteed (totalWeight candidates) n sorted).length ≤ n ∧
      selectGuaranteed (candidates.mergeSort candidateLe) n =
        .ok ⟨guaranteed (totalWeight candidates) n sorted,
          remainders (totalWeight candidates) n sorted⟩ ∧
      ∀ rand, weightedWithGuaranteedAssignment rng candidates n rand = (do
        let rest ← selectRemaining rng (remainders (totalWeight candidates) n sorted)
          (n - (guaranteed (totalWeight candidates) n sorted).length) rand
        .ok (guaranteed (totalWeight candidates) n sorted ++ rest)) := by
  have hperm : (candidates.mergeSort candidateLe).Perm candidates := List.mergeSort_perm _ _
  have hpos : 0 < totalWeight candidates := hweights.totalWeight_pos hne
  have hle : (guaranteed (totalWeight candidates) n
      (candidates.mergeSort candidateLe)).length ≤ n := by
    rw [← totalWeight_perm hperm] at hpos ⊢
    rw [length_guaranteed]
    exact Apportionment.sum_div_le hpos
  have hselect := selectGuaranteed_of_perm hperm hweights hne hn hfits
  have hcount : Checked.narrow 16 "selected count can not exceed u16" (guaranteed
      (totalWeight candidates) n (candidates.mergeSort candidateLe)).length = .ok (guaranteed
        (totalWeight candidates) n (candidates.mergeSort candidateLe)).length :=
    Checked.narrow_of_lt _ (by omega)
  refine ⟨candidates.mergeSort candidateLe, hperm, hle, hselect, fun rand => ?_⟩
  simp [weightedWithGuaranteedAssignment, hne, hzero, hselect, hcount, Checked.sub_of_le hle]

/-- The seats that are not guaranteed are drawn from what is left, with the random numbers of the
group's own copy of the generator. -/
def DrawsRest (candidates : List (α × Weight)) (n : ℕ) (result : SelectGuaranteedResult α) :
    Prop :=
  ∀ rand : rng.State, ∃ drawn,
    WeightedRandom.DrawnBy result.remaining
      (WeightedRandom.randomNumbers rng (totalWeight result.remaining)
        (n - result.selected.length) (rng.fromSeed (rng.getSeed rand))) drawn ∧
    drawn.length = n - result.selected.length ∧
    weightedWithGuaranteedAssignment rng candidates n rand = .ok (result.selected ++ drawn)

theorem exists_drawsRest (hweights : StakeWeights candidates) (hne : candidates ≠ [])
    (hzero : n ≠ 0) (hn : n < 2 ^ 16) (hfits : GroupFits candidates n) :
    ∃ sorted : List (α × Weight), sorted.Perm candidates ∧
      (guaranteed (totalWeight candidates) n sorted).length ≤ n ∧
      selectGuaranteed (candidates.mergeSort candidateLe) n =
        .ok ⟨guaranteed (totalWeight candidates) n sorted,
          remainders (totalWeight candidates) n sorted⟩ ∧
      DrawsRest rng candidates n ⟨guaranteed (totalWeight candidates) n sorted,
        remainders (totalWeight candidates) n sorted⟩ := by
  obtain ⟨htotal, hremainders⟩ := (hfits.resolve_left hne).resolve_left hzero
  obtain ⟨sorted, hperm, hle, hselect, heq⟩ :=
    weightedWithGuaranteedAssignment_eq rng hweights hne hzero hn htotal
  refine ⟨sorted, hperm, hle, hselect, fun rand => ?_⟩
  have hpos : 0 < totalWeight candidates := hweights.totalWeight_pos hne
  have hremaining := totalWeight_remainders_perm (n := n) hperm
  -- what is left to draw for is worth the total weight per seat
  have hdraw : n - (guaranteed (totalWeight candidates) n sorted).length = 0 ∨
      0 < totalWeight (remainders (totalWeight candidates) n sorted) := by
    rcases Nat.eq_zero_or_pos (n - (guaranteed (totalWeight candidates) n sorted).length)
      with hnone | hsome
    · exact .inl hnone
    · right
      rw [length_guaranteed, ((hperm.map _).map _).sum_eq] at hsome
      rw [hremaining]
      exact (Apportionment.sum_mod_eq hpos) ▸ Nat.mul_pos hpos hsome
  obtain ⟨drawn, hdraws, hlength, hdrawn⟩ := WeightedRandom.selectAuthorities_of_lt rng
    (hremaining ▸ hremainders) hdraw (rng.getSeed rand)
  refine ⟨drawn, hdraws, hlength, ?_⟩
  rw [heq]
  simp [selectRemaining, hdrawn]

theorem weightedWithGuaranteedAssignment_empty (rand : rng.State)
    (h : candidates = [] ∨ n = 0) :
    weightedWithGuaranteedAssignment rng candidates n rand = .ok [] ∧
      GroupDraw candidates n [] := by
  rcases h with rfl | rfl
  · exact ⟨by simp [weightedWithGuaranteedAssignment], by simp, by simp, by simp, by simp⟩
  · exact ⟨by simp [weightedWithGuaranteedAssignment], by simp, by simp, by simp, by simp⟩

theorem weightedWithGuaranteedAssignment_of_fits (hweights : StakeWeights candidates)
    (hn : n < 2 ^ 16) (hfits : GroupFits candidates n) (rand : rng.State) :
    ∃ selected, weightedWithGuaranteedAssignment rng candidates n rand = .ok selected ∧
      GroupDraw candidates n selected := by
  by_cases hempty : candidates = [] ∨ n = 0
  · exact ⟨[], weightedWithGuaranteedAssignment_empty rng rand hempty⟩
  obtain ⟨hne, hzero⟩ := not_or.mp hempty
  obtain ⟨sorted, hperm, hle, -, hdraws⟩ := exists_drawsRest rng hweights hne hzero hn hfits
  obtain ⟨drawn, hdrawn, hlength, heq⟩ := hdraws rand
  refine ⟨_, heq, ?_⟩
  exact {
    length_eq := by
      intro _
      rw [List.length_append, hlength]
      exact Nat.add_sub_cancel' hle
    empty := fun h => absurd h hne
    mem := by
      intro member hmember
      refine (hperm.map _).mem_iff.mp ?_
      rcases List.mem_append.mp hmember with hguaranteed | hrest
      · exact mem_guaranteed hguaranteed
      · exact mem_remainders (hdrawn.mem hrest)
    guaranteed_le := by
      intro candidate hcandidate
      rw [List.count_append]
      exact (guaranteedSeats_le_count _ n (hperm.mem_iff.mpr hcandidate)).trans
        (Nat.le_add_right _ _) }

/-- A group whose sums do not fit stops the selection. -/
theorem weightedWithGuaranteedAssignment_of_not_fits (hweights : StakeWeights candidates)
    (hn : n < 2 ^ 16) (hfits : ¬ GroupFits candidates n) (rand : rng.State) :
    weightedWithGuaranteedAssignment rng candidates n rand =
      .error ⟨"attempt to add with overflow"⟩ := by
  simp only [GroupFits, not_or, not_and] at hfits
  obtain ⟨hne, hzero, hoverflow⟩ := hfits
  by_cases htotal : totalWeight candidates < 2 ^ 128
  · obtain ⟨sorted, hperm, -, -, heq⟩ :=
      weightedWithGuaranteedAssignment_eq rng hweights hne hzero hn htotal
    have hremaining : 2 ^ 128 ≤
        totalWeight (remainders (totalWeight candidates) n sorted) := by
      rw [totalWeight_remainders_perm hperm]
      exact Nat.le_of_not_lt (hoverflow htotal)
    rw [heq, selectRemaining, WeightedRandom.selectAuthorities_of_le rng hremaining]
    rfl
  · have hle : 2 ^ 128 ≤ totalWeight (candidates.mergeSort candidateLe) := by
      rw [totalWeight_perm (List.mergeSort_perm candidates _)]
      exact Nat.le_of_not_lt htotal
    have hsum : Checked.sum 128 ((candidates.mergeSort candidateLe).map (·.2)) =
        .error ⟨"attempt to add with overflow"⟩ := Checked.sum_of_le hle
    simp [weightedWithGuaranteedAssignment, hne, hzero, selectGuaranteed, hsum]

end Group

/-! ## The whole committee -/

section Committee

variable (registeredSeats permissionedSeats : UInt16) (registeredCandidates : List (α × Weight))
  (permissionedCandidates : List α)

/-- The groups that are drawn from, each with its number of seats: when one list is empty,
the other one gets all the seats. -/
def drawnGroups : List (List (α × Weight) × ℕ) :=
  if registeredCandidates = [] then
    [(permissionedCandidates.map fun candidate => (candidate, 1),
      registeredSeats.toNat + permissionedSeats.toNat)]
  else if permissionedCandidates = [] then
    [(registeredCandidates, registeredSeats.toNat + permissionedSeats.toNat)]
  else
    [(registeredCandidates, registeredSeats.toNat),
      (permissionedCandidates.map fun candidate => (candidate, 1), permissionedSeats.toNat)]

/-- All sums of the source fit: the number of seats 16 bits, the sums of each group 128. -/
def Fits : Prop :=
  registeredSeats.toNat + permissionedSeats.toNat < 2 ^ 16 ∧
    ∀ group ∈ drawnGroups registeredSeats permissionedSeats registeredCandidates
      permissionedCandidates, GroupFits group.1 group.2

/-- The expected number of seats of a weight in its group. -/
def expectedSeats (candidates : List (α × Weight)) (n : ℕ) (weight : Weight) : ℚ :=
  (weight : ℚ) * n / totalWeight candidates

theorem floor_expectedSeats (candidates : List (α × Weight)) (n : ℕ) (weight : Weight) :
    ⌊expectedSeats candidates n weight⌋₊ = weight * n / totalWeight candidates := by
  rw [expectedSeats, ← Nat.cast_mul, Nat.floor_div_eq_div]

/-- What is asked of a committee. -/
structure CommitteeLaw [DecidableEq α] (committee : List α) : Prop where
  length_eq : committee.length = registeredSeats.toNat + permissionedSeats.toNat
  mem : ∀ member ∈ committee,
    member ∈ registeredCandidates.map (·.1) ∨ member ∈ permissionedCandidates
  registered_seats : registeredCandidates ≠ [] → permissionedCandidates ≠ [] →
    committee.countP (· ∈ registeredCandidates.map (·.1)) = registeredSeats.toNat
  permissioned_seats : registeredCandidates ≠ [] → permissionedCandidates ≠ [] →
    committee.countP (· ∈ permissionedCandidates) = permissionedSeats.toNat
  expected : ∀ group ∈ drawnGroups registeredSeats permissionedSeats registeredCandidates
    permissionedCandidates, ∀ candidate ∈ group.1,
      ⌊expectedSeats group.1 group.2 candidate.2⌋₊ ≤ committee.count candidate.1

/-- The selection returns, it returns nothing exactly when there is nobody to choose from,
and what it returns obeys the law. -/
def SeatLaw [LinearOrder α] (rng : Rng) (registeredSeats permissionedSeats : UInt16)
    (registeredCandidates : List (α × Weight)) (permissionedCandidates : List α)
    (seed : Seed) : Prop :=
  ∃ result, selectAuthorities rng registeredSeats permissionedSeats registeredCandidates
      permissionedCandidates seed = .ok result ∧
    (result = none ↔ registeredCandidates = [] ∧ permissionedCandidates = [] ∧
      0 < registeredSeats.toNat + permissionedSeats.toNat) ∧
    ∀ committee, result = some committee →
      CommitteeLaw registeredSeats permissionedSeats registeredCandidates
        permissionedCandidates committee

variable {registeredSeats permissionedSeats registeredCandidates permissionedCandidates}

theorem stakeWeights_permissioned :
    StakeWeights (permissionedCandidates.map fun candidate => (candidate, 1)) := by
  intro candidate hcandidate
  obtain ⟨_, -, rfl⟩ := List.mem_map.mp hcandidate
  simp

/-- A group is one of the two lists and gets no more than all the seats. -/
theorem mem_drawnGroups {group : List (α × Weight) × ℕ} (hgroup : group ∈ drawnGroups
      registeredSeats permissionedSeats registeredCandidates permissionedCandidates) :
    (group.1 = registeredCandidates ∨
        group.1 = permissionedCandidates.map fun candidate => (candidate, 1)) ∧
      group.2 ≤ registeredSeats.toNat + permissionedSeats.toNat := by
  unfold drawnGroups at hgroup
  split at hgroup
  · rw [List.mem_singleton.mp hgroup]
    exact ⟨.inr rfl, le_rfl⟩
  · split at hgroup
    · rw [List.mem_singleton.mp hgroup]
      exact ⟨.inl rfl, le_rfl⟩
    · simp only [List.mem_cons, List.not_mem_nil, or_false] at hgroup
      rcases hgroup with rfl | rfl
      · exact ⟨.inl rfl, Nat.le_add_right _ _⟩
      · exact ⟨.inr rfl, Nat.le_add_left _ _⟩

theorem stakeWeights_of_mem_drawnGroups (hweights : StakeWeights registeredCandidates)
    {group : List (α × Weight) × ℕ} (hgroup : group ∈ drawnGroups registeredSeats
      permissionedSeats registeredCandidates permissionedCandidates) :
    StakeWeights group.1 := by
  rcases (mem_drawnGroups hgroup).1 with h | h
  · exact h ▸ hweights
  · exact h ▸ stakeWeights_permissioned

/-- With fewer candidates than 2 to the power of 48, only the number of seats matters. -/
theorem fits_iff_of_length_lt (hweights : StakeWeights registeredCandidates)
    (hregistered : registeredCandidates.length < 2 ^ 48)
    (hpermissioned : permissionedCandidates.length < 2 ^ 48) :
    Fits registeredSeats permissionedSeats registeredCandidates permissionedCandidates ↔
      registeredSeats.toNat + permissionedSeats.toNat < 2 ^ 16 := by
  refine ⟨And.left, fun hseats => ⟨hseats, fun group hgroup => ?_⟩⟩
  obtain ⟨hlist, hle⟩ := mem_drawnGroups hgroup
  refine groupFits_of_length_lt (stakeWeights_of_mem_drawnGroups hweights hgroup) ?_
    (hle.trans_lt hseats)
  rcases hlist with h | h
  · rw [h]
    exact hregistered
  · rw [h, List.length_map]
    exact hpermissioned

section Law

variable [LinearOrder α] {rng : Rng} {seed : Seed}

/-- The selection draws from each group and shuffles what was drawn. -/
theorem selectAuthorities_eq
    (hseats : registeredSeats.toNat + permissionedSeats.toNat < 2 ^ 16) :
    selectAuthorities rng registeredSeats permissionedSeats registeredCandidates
        permissionedCandidates seed = (do
      let selected ← (drawnGroups registeredSeats permissionedSeats registeredCandidates
        permissionedCandidates).mapM fun group =>
          weightedWithGuaranteedAssignment rng group.1 group.2 (rng.fromSeed seed)
      let committee := (rng.shuffle selected.flatten (rng.fromSeed seed)).1
      .ok (if committee = [] ∧ 0 < registeredSeats.toNat + permissionedSeats.toNat then none
        else some committee)) := by
  have hadd : Checked.addWith true 16 permissionedSeats.toNat registeredSeats.toNat =
      .ok (registeredSeats.toNat + permissionedSeats.toNat) := by
    rw [Nat.add_comm]
    exact Checked.addWith_of_lt true (by omega)
  by_cases hregistered : registeredCandidates = []
  · simp [selectAuthorities, selectAuthoritiesWith, drawnGroups, hadd, hregistered]
  · by_cases hpermissioned : permissionedCandidates = []
    · simp [selectAuthorities, selectAuthoritiesWith, drawnGroups, hadd, hregistered,
        hpermissioned]
    · simp [selectAuthorities, selectAuthoritiesWith, drawnGroups, hadd, hregistered,
        hpermissioned, bind_assoc]

theorem selectAuthorities_of_le
    (hseats : 2 ^ 16 ≤ registeredSeats.toNat + permissionedSeats.toNat) :
    selectAuthorities rng registeredSeats permissionedSeats registeredCandidates
      permissionedCandidates seed = .error ⟨"attempt to add with overflow"⟩ := by
  rw [selectAuthorities, selectAuthoritiesWith, Checked.addWith, if_pos rfl,
    Checked.add_of_le (by omega)]
  rfl

theorem committeeLaw_of_draw {candidates : List (α × Weight)} {committee drawn : List α}
    (hgroups : drawnGroups registeredSeats permissionedSeats registeredCandidates
      permissionedCandidates = [(candidates, registeredSeats.toNat + permissionedSeats.toNat)])
    (halone : registeredCandidates = [] ∨ permissionedCandidates = [])
    (hfrom : ∀ member ∈ candidates.map (·.1),
      member ∈ registeredCandidates.map (·.1) ∨ member ∈ permissionedCandidates)
    (hdraw : GroupDraw candidates (registeredSeats.toNat + permissionedSeats.toNat) drawn)
    (hlength : drawn.length = registeredSeats.toNat + permissionedSeats.toNat)
    (hperm : committee.Perm drawn) :
    CommitteeLaw registeredSeats permissionedSeats registeredCandidates
      permissionedCandidates committee where
  length_eq := hperm.length_eq.trans hlength
  mem member hmember := hfrom member (hdraw.mem member (hperm.mem_iff.mp hmember))
  registered_seats hregistered hpermissioned :=
    (halone.elim hregistered hpermissioned).elim
  permissioned_seats hregistered hpermissioned :=
    (halone.elim hregistered hpermissioned).elim
  expected group hgroup candidate hcandidate := by
    rw [hgroups, List.mem_singleton] at hgroup
    subst hgroup
    rw [floor_expectedSeats, hperm.count_eq]
    exact hdraw.guaranteed_le candidate hcandidate

theorem committeeLaw_of_draws {committee registered permissioned : List α}
    (hregistered : registeredCandidates ≠ []) (hpermissioned : permissionedCandidates ≠ [])
    (hdisjoint : ∀ candidate ∈ registeredCandidates.map (·.1),
      candidate ∉ permissionedCandidates)
    (hdrawR : GroupDraw registeredCandidates registeredSeats.toNat registered)
    (hdrawP : GroupDraw (permissionedCandidates.map fun candidate => (candidate, 1))
      permissionedSeats.toNat permissioned)
    (hperm : committee.Perm (registered ++ permissioned)) :
    CommitteeLaw registeredSeats permissionedSeats registeredCandidates
      permissionedCandidates committee := by
  have hlengthR := hdrawR.length_eq hregistered
  have hlengthP := hdrawP.length_eq (by simpa using hpermissioned)
  have hmemP : ∀ member ∈ permissioned, member ∈ permissionedCandidates := by
    intro member hmember
    simpa using hdrawP.mem member hmember
  exact {
    length_eq := by rw [hperm.length_eq, List.length_append, hlengthR, hlengthP]
    mem := by
      intro member hmember
      rcases List.mem_append.mp (hperm.mem_iff.mp hmember) with h | h
      · exact .inl (hdrawR.mem member h)
      · exact .inr (hmemP member h)
    registered_seats := by
      intro _ _
      have hown : registered.countP (· ∈ registeredCandidates.map (·.1)) =
          registered.length :=
        List.countP_eq_length.mpr fun member h => by simpa using hdrawR.mem member h
      have hother : permissioned.countP (· ∈ registeredCandidates.map (·.1)) = 0 :=
        List.countP_eq_zero.mpr fun member h hmem =>
          hdisjoint member (by simpa using hmem) (hmemP member h)
      rw [hperm.countP_eq, List.countP_append, hown, hother, hlengthR, Nat.add_zero]
    permissioned_seats := by
      intro _ _
      have hown : permissioned.countP (· ∈ permissionedCandidates) = permissioned.length :=
        List.countP_eq_length.mpr fun member h => by simpa using hmemP member h
      have hother : registered.countP (· ∈ permissionedCandidates) = 0 :=
        List.countP_eq_zero.mpr fun member h hmem =>
          hdisjoint member (hdrawR.mem member h) (by simpa using hmem)
      rw [hperm.countP_eq, List.countP_append, hown, hother, hlengthP, Nat.zero_add]
    expected := by
      intro group hgroup candidate hcandidate
      simp only [drawnGroups, hregistered, hpermissioned, if_false, List.mem_cons,
        List.not_mem_nil, or_false] at hgroup
      rw [floor_expectedSeats, hperm.count_eq, List.count_append]
      rcases hgroup with rfl | rfl
      · exact (hdrawR.guaranteed_le candidate hcandidate).trans (Nat.le_add_right _ _)
      · exact (hdrawP.guaranteed_le candidate hcandidate).trans (Nat.le_add_left _ _) }

/-- Unless there is nobody to choose from, what was drawn makes a lawful committee. -/
theorem committeeLaw_of_forall₂ (hdisjoint : ∀ candidate ∈ registeredCandidates.map (·.1),
      candidate ∉ permissionedCandidates)
    (hsomebody : ¬ (registeredCandidates = [] ∧ permissionedCandidates = [] ∧
      0 < registeredSeats.toNat + permissionedSeats.toNat)) {selected : List (List α)}
    (hdraws : List.Forall₂ (fun group drawn => GroupDraw group.1 group.2 drawn)
      (drawnGroups registeredSeats permissionedSeats registeredCandidates
        permissionedCandidates) selected)
    {committee : List α} (hperm : committee.Perm selected.flatten) :
    CommitteeLaw registeredSeats permissionedSeats registeredCandidates
      permissionedCandidates committee := by
  by_cases hregistered : registeredCandidates = []
  · have hgroups : drawnGroups registeredSeats permissionedSeats registeredCandidates
        permissionedCandidates = [(permissionedCandidates.map fun candidate => (candidate, 1),
          registeredSeats.toNat + permissionedSeats.toNat)] := if_pos hregistered
    rw [hgroups] at hdraws
    obtain ⟨drawn, _, hdraw, hnil, rfl⟩ := List.forall₂_cons_left_iff.mp hdraws
    obtain rfl := List.forall₂_nil_left_iff.mp hnil
    refine committeeLaw_of_draw hgroups (.inl hregistered)
      (fun member hmember => .inr (by simpa using hmember)) hdraw ?_ (by simpa using hperm)
    by_cases hpermissioned : permissionedCandidates = []
    · rw [hdraw.empty (by simpa using hpermissioned), List.length_nil]
      exact (Nat.eq_zero_of_not_pos fun h => hsomebody ⟨hregistered, hpermissioned, h⟩).symm
    · exact hdraw.length_eq (by simpa using hpermissioned)
  · by_cases hpermissioned : permissionedCandidates = []
    · have hgroups : drawnGroups registeredSeats permissionedSeats registeredCandidates
          permissionedCandidates =
            [(registeredCandidates, registeredSeats.toNat + permissionedSeats.toNat)] := by
        rw [drawnGroups, if_neg hregistered, if_pos hpermissioned]
      rw [hgroups] at hdraws
      obtain ⟨drawn, _, hdraw, hnil, rfl⟩ := List.forall₂_cons_left_iff.mp hdraws
      obtain rfl := List.forall₂_nil_left_iff.mp hnil
      exact committeeLaw_of_draw hgroups (.inr hpermissioned) (fun _ => .inl) hdraw
        (hdraw.length_eq hregistered) (by simpa using hperm)
    · rw [drawnGroups, if_neg hregistered, if_neg hpermissioned] at hdraws
      obtain ⟨registered, _, hdrawR, hrest, rfl⟩ := List.forall₂_cons_left_iff.mp hdraws
      obtain ⟨permissioned, _, hdrawP, hnil, rfl⟩ := List.forall₂_cons_left_iff.mp hrest
      obtain rfl := List.forall₂_nil_left_iff.mp hnil
      exact committeeLaw_of_draws hregistered hpermissioned hdisjoint hdrawR hdrawP
        (by simpa using hperm)

theorem seatLaw_of_fits (hweights : StakeWeights registeredCandidates)
    (hdisjoint : ∀ candidate ∈ registeredCandidates.map (·.1),
      candidate ∉ permissionedCandidates)
    (hfits : Fits registeredSeats permissionedSeats registeredCandidates
      permissionedCandidates) :
    SeatLaw rng registeredSeats permissionedSeats registeredCandidates
      permissionedCandidates seed := by
  obtain ⟨hseats, hgroups⟩ := hfits
  obtain ⟨selected, hselected, hdraws⟩ := Fallible.exists_mapM_eq_ok
    (P := fun group drawn => GroupDraw group.1 group.2 drawn) fun group hgroup =>
      weightedWithGuaranteedAssignment_of_fits rng
        (stakeWeights_of_mem_drawnGroups hweights hgroup)
        ((mem_drawnGroups hgroup).2.trans_lt hseats) (hgroups group hgroup)
        (rng.fromSeed seed)
  have hperm := rng.shuffle_perm selected.flatten (rng.fromSeed seed)
  rw [SeatLaw, selectAuthorities_eq hseats, hselected]
  refine ⟨_, rfl, ?_⟩
  by_cases hnobody : registeredCandidates = [] ∧ permissionedCandidates = [] ∧
      0 < registeredSeats.toNat + permissionedSeats.toNat
  · obtain ⟨hregistered, hpermissioned, hpos⟩ := hnobody
    rw [drawnGroups, if_pos hregistered] at hdraws
    obtain ⟨drawn, _, hdraw, hnil, rfl⟩ := List.forall₂_cons_left_iff.mp hdraws
    obtain rfl := List.forall₂_nil_left_iff.mp hnil
    obtain rfl := hdraw.empty (by simpa using hpermissioned)
    rw [if_pos ⟨by simpa using hperm, hpos⟩]
    exact ⟨by simp [hregistered, hpermissioned, hpos], by simp⟩
  · have hlaw := committeeLaw_of_forall₂ hdisjoint hnobody hdraws hperm
    rw [if_neg]
    · refine ⟨iff_of_false (by simp) hnobody, ?_⟩
      rintro committee ⟨⟩
      exact hlaw
    · rintro ⟨hempty, hpos⟩
      have hlength := hlaw.length_eq
      rw [hempty, List.length_nil] at hlength
      omega

theorem fits_of_selectAuthorities (hweights : StakeWeights registeredCandidates)
    {result : Option (List α)} (h : selectAuthorities rng registeredSeats permissionedSeats
      registeredCandidates permissionedCandidates seed = .ok result) :
    Fits registeredSeats permissionedSeats registeredCandidates permissionedCandidates := by
  by_cases hseats : registeredSeats.toNat + permissionedSeats.toNat < 2 ^ 16
  · refine ⟨hseats, fun group hgroup => ?_⟩
    rw [selectAuthorities_eq hseats, Fallible.bind_eq_ok_iff] at h
    obtain ⟨selected, hselected, -⟩ := h
    obtain ⟨drawn, hdrawn⟩ := Fallible.exists_ok_of_mem hselected hgroup
    by_contra hoverflow
    rw [weightedWithGuaranteedAssignment_of_not_fits rng
      (stakeWeights_of_mem_drawnGroups hweights hgroup)
      ((mem_drawnGroups hgroup).2.trans_lt hseats) hoverflow] at hdrawn
    cases hdrawn
  · rw [selectAuthorities_of_le (Nat.le_of_not_lt hseats)] at h
    cases h

/-- The law holds exactly when the sums of the source fit their types. -/
theorem seatLaw_iff_fits (rng : Rng) (registeredSeats permissionedSeats : UInt16)
    (registeredCandidates : List (α × Weight)) (permissionedCandidates : List α)
    (seed : Seed) (hweights : StakeWeights registeredCandidates)
    (hdisjoint : ∀ candidate ∈ registeredCandidates.map (·.1),
      candidate ∉ permissionedCandidates) :
    SeatLaw rng registeredSeats permissionedSeats registeredCandidates
        permissionedCandidates seed ↔
      Fits registeredSeats permissionedSeats registeredCandidates permissionedCandidates := by
  constructor
  · rintro ⟨result, hresult, -⟩
    exact fits_of_selectAuthorities hweights hresult
  · exact seatLaw_of_fits hweights hdisjoint

/-- One registered and one permissioned candidate share three seats. -/
theorem seatLaw_iff_fits_three_seats :
    SeatLaw zeroRng 2 1 [(7, 1000)] [8] (.filled 32 0) ∧ Fits 2 1 [((7 : ℕ), 1000)] [8] := by
  have hweights : StakeWeights [((7 : ℕ), 1000)] := by simp [StakeWeights]
  have hfits : Fits 2 1 [((7 : ℕ), 1000)] [8] :=
    (fits_iff_of_length_lt hweights (by simp) (by simp)).mpr (by decide)
  exact ⟨(seatLaw_iff_fits zeroRng 2 1 _ _ _ hweights (by simp)).mpr hfits, hfits⟩

/-- With 65535 and one seat the number of seats overflows, and nobody is selected. -/
theorem seatLaw_fails_at_65536_seats :
    StakeWeights [((7 : ℕ), 1000)] ∧
      selectAuthorities zeroRng 65535 1 [(7, 1000)] [8] (.filled 32 0) =
        .error ⟨"attempt to add with overflow"⟩ ∧
      ¬ SeatLaw zeroRng 65535 1 [(7, 1000)] [8] (.filled 32 0) := by
  have herror : selectAuthorities zeroRng 65535 1 [((7 : ℕ), 1000)] [8] (.filled 32 0) =
      .error ⟨"attempt to add with overflow"⟩ := selectAuthorities_of_le (by decide)
  refine ⟨by simp [StakeWeights], herror, ?_⟩
  rintro ⟨result, hresult, -⟩
  rw [herror] at hresult
  cases hresult

end Law

end Committee

end PartnerChains.Selection.AriadneV2
