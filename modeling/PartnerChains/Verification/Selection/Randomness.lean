import PartnerChains.Model.SelectionStream
import PartnerChains.Verification.Selection.Seats

/-!
# The random stream is read more than once

Each draw for leftover seats starts a new generator from the seed of the first one, and the
shuffle uses the first one, which was never advanced. So all of them read from the beginning.
-/

namespace PartnerChains.Selection

variable {α : Type} {rng : StreamRng}

/-! ## Parts of a stream -/

/-- What is read, if anything, begins at the given position. -/
def ReadsFrom (seed : Seed) (position : ℕ) (parts : List StreamPart) : Prop :=
  ∀ part ∈ parts.head?, part.seed = seed ∧ part.first = position ∧ position < part.last

theorem readsFrom_read_append {before after : rng.State}
    (h : rng.position before < rng.position after) (parts : List StreamPart) :
    ReadsFrom (rng.getSeed before) (rng.position before)
      (rng.read before after ++ parts) := by
  simp [ReadsFrom, StreamRng.read, h]

theorem readsFrom_read (before after : rng.State) :
    ReadsFrom (rng.getSeed before) (rng.position before) (rng.read before after) := by
  by_cases h : rng.position before < rng.position after
  · simp [ReadsFrom, StreamRng.read, h]
  · simp [ReadsFrom, StreamRng.read, h]

theorem read_shuffle_eq_nil_iff (selected : List α) (rand : rng.State) :
    rng.read rand (rng.shuffle selected rand).2 = [] ↔ selected.length ≤ 1 := by
  by_cases h : selected.length ≤ 1
  · simp [StreamRng.read, rng.position_shuffle_short selected rand h, h]
  · simp [StreamRng.read, rng.position_shuffle selected rand (Nat.lt_of_not_le h), h]

/-- Two readers that begin at the same position only differ if one of them reads nothing. -/
theorem forall_not_overlaps_iff {seed : Seed} {position : ℕ} {parts parts' : List StreamPart}
    (h : ReadsFrom seed position parts) (h' : ReadsFrom seed position parts') :
    (∀ part ∈ parts, ∀ part' ∈ parts', ¬ part.Overlaps part') ↔ parts = [] ∨ parts' = [] := by
  cases parts with
  | nil => simp
  | cons part parts =>
      cases parts' with
      | nil => simp
      | cons part' parts' =>
          obtain ⟨hseed, hfirst, hlast⟩ := h part rfl
          obtain ⟨hseed', hfirst', hlast'⟩ := h' part' rfl
          have hoverlap : part.Overlaps part' := by
            refine ⟨hseed.trans hseed'.symm, ?_⟩
            rw [hfirst, hfirst', max_self]
            exact lt_min hlast hlast'
          simp only [reduceCtorEq, or_self, iff_false]
          exact fun hnone => hnone part List.mem_cons_self part' List.mem_cons_self hoverlap

/-! ## Weighted random selection -/

namespace WeightedRandom

variable {candidates : List (α × Weight)} {total : Weight}

theorem position_lt_of_selectWithWeight {rand rand' : rng.State} {index : ℕ}
    (h : selectWithWeight rng.toRng candidates total rand = .ok (index, rand')) :
    rng.position rand < rng.position rand' := by
  by_cases hzero : total = 0
  · simp [selectWithWeight, hzero] at h
  · simp only [selectWithWeight, hzero, if_false, Fallible.bind_eq_ok_iff] at h
    obtain ⟨_, -, h⟩ := h
    cases h
    exact rng.position_randomRange _ _ (Nat.pos_of_ne_zero hzero)

variable {parts : List StreamPart}

/-- One part of the stream for each seat. -/
theorem fillSeatsTrace_reads (hne : candidates ≠ []) {missing : ℕ} {rand : rng.State}
    {committee filled : List α}
    (h : fillSeatsTrace rng candidates total missing rand committee = .ok (filled, parts)) :
    filled.length = committee.length + missing ∧ parts.length = missing ∧
      ReadsFrom (rng.getSeed rand) (rng.position rand) parts := by
  induction missing generalizing rand committee filled parts with
  | zero =>
      cases h
      exact ⟨rfl, rfl, by simp [ReadsFrom]⟩
  | succ missing ih =>
      have hempty : candidates.isEmpty = false := by simpa using hne
      simp only [fillSeatsTrace, hempty, Bool.false_eq_true, if_false,
        Fallible.bind_eq_ok_iff] at h
      obtain ⟨⟨index, rand'⟩, hselect, h⟩ := h
      have hlt := position_lt_of_selectWithWeight hselect
      rcases hselected : candidates[index]? with _ | ⟨selected, weight⟩
      · simp [hselected] at h
      · simp only [hselected, Fallible.bind_eq_ok_iff] at h
        obtain ⟨⟨filled, rest⟩, hrest, h⟩ := h
        cases h
        obtain ⟨hfilled, hlength, -⟩ := ih hrest
        refine ⟨?_, ?_, readsFrom_read_append hlt rest⟩
        · rw [hfilled, List.length_append, List.length_singleton]
          omega
        · simp [StreamRng.read, hlt, hlength]

theorem selectAuthoritiesTrace_reads {size : ℕ} {seed : Seed} {selected : Option (List α)}
    (hne : candidates ≠ [])
    (h : selectAuthoritiesTrace rng candidates seed size = .ok (selected, parts)) :
    (selected.getD []).length = size ∧ parts.length = size ∧ ReadsFrom seed 0 parts := by
  simp only [selectAuthoritiesTrace, Fallible.bind_eq_ok_iff] at h
  obtain ⟨total, -, ⟨committee, read⟩, hfill, h⟩ := h
  cases h
  obtain ⟨hcommittee, hlength, hreads⟩ := fillSeatsTrace_reads hne hfill
  rw [rng.getSeed_fromSeed, rng.position_fromSeed] at hreads
  rw [List.length_nil, Nat.zero_add] at hcommittee
  refine ⟨?_, hlength, hreads⟩
  rw [if_pos hcommittee.ge]
  exact hcommittee

theorem selectAuthoritiesTrace_nil {size : ℕ} {seed : Seed} {selected : Option (List α)}
    (h : selectAuthoritiesTrace rng ([] : List (α × Weight)) seed size = .ok (selected, parts)) :
    selected.getD [] = [] ∧ parts = [] := by
  cases size with
  | zero => cases h; exact ⟨rfl, rfl⟩
  | succ size => cases h; exact ⟨rfl, rfl⟩

end WeightedRandom

/-! ## One group -/

namespace AriadneV2

/-- The seats that a group fills: all of its seats, unless none of its candidates has weight. -/
def filledSeats (candidates : List (α × Weight)) (n : ℕ) : ℕ :=
  if totalWeight candidates = 0 then 0 else n

/-- The seats of a group that are drawn: as many as the total weight is contained in what is left
of the scaled weights. -/
def drawnSeats (candidates : List (α × Weight)) (n : ℕ) : ℕ :=
  ((candidates.map (·.2)).map fun w => w * n % totalWeight candidates).sum /
    totalWeight candidates

theorem drawnSeats_eq {candidates : List (α × Weight)} (hpos : 0 < totalWeight candidates)
    (n : ℕ) : drawnSeats candidates n =
      n - (guaranteed (totalWeight candidates) n candidates).length := by
  have hleft : ((candidates.map (·.2)).map fun w => w * n % totalWeight candidates).sum =
      totalWeight candidates *
        (n - ((candidates.map (·.2)).map fun w => w * n / totalWeight candidates).sum) :=
    Apportionment.sum_mod_eq hpos
  rw [drawnSeats, length_guaranteed, hleft, Nat.mul_div_cancel_left _ hpos]

theorem drawnSeats_le_filledSeats (candidates : List (α × Weight)) (n : ℕ) :
    drawnSeats candidates n ≤ filledSeats candidates n := by
  rcases Nat.eq_zero_or_pos (totalWeight candidates) with hzero | hpos
  · simp [drawnSeats, hzero]
  · rw [drawnSeats_eq hpos, filledSeats, if_neg hpos.ne']
    exact Nat.sub_le _ _

theorem drawnSeats_perm {candidates sorted : List (α × Weight)} (h : sorted.Perm candidates)
    (n : ℕ) : drawnSeats sorted n = drawnSeats candidates n := by
  rw [drawnSeats, drawnSeats, totalWeight_perm h, ((h.map _).map _).sum_eq]

theorem filledSeats_perm {candidates sorted : List (α × Weight)} (h : sorted.Perm candidates)
    (n : ℕ) : filledSeats sorted n = filledSeats candidates n := by
  rw [filledSeats, filledSeats, totalWeight_perm h]

theorem filledSeats_permissioned {candidates : List α} (hne : candidates ≠ []) (n : ℕ) :
    filledSeats (candidates.map fun candidate => (candidate, 1)) n = n :=
  if_neg (stakeWeights_permissioned.totalWeight_pos (by simpa using hne)).ne'

theorem selectRemainingTrace_reads {candidates : List (α × Weight)} {n missing : ℕ}
    {rand : rng.State} {rest : List α} {parts : List StreamPart}
    (hmissing : missing = n - (guaranteed (totalWeight candidates) n candidates).length)
    (h : selectRemainingTrace rng (remainders (totalWeight candidates) n candidates) missing
      rand = .ok (rest, parts)) :
    rest.length = drawnSeats candidates n ∧ parts.length = drawnSeats candidates n ∧
      ReadsFrom (rng.getSeed rand) 0 parts := by
  simp only [selectRemainingTrace, Fallible.bind_eq_ok_iff] at h
  obtain ⟨⟨selected, read⟩, hselect, h⟩ := h
  cases h
  by_cases hnone : remainders (totalWeight candidates) n candidates = []
  · have hdrawn : drawnSeats candidates n = 0 := by
      rw [drawnSeats, ← totalWeight_remainders, hnone]
      exact Nat.zero_div _
    rw [hnone] at hselect
    obtain ⟨hrest, rfl⟩ := WeightedRandom.selectAuthoritiesTrace_nil hselect
    rw [hrest, hdrawn]
    exact ⟨rfl, rfl, by simp [ReadsFrom]⟩
  · -- something is left of the weights, so they do not add up to zero
    have hpos : 0 < totalWeight candidates := by
      refine Nat.pos_of_ne_zero fun hzero => hnone ?_
      refine List.filter_eq_nil_iff.mpr fun remainder hmem => ?_
      obtain ⟨candidate, hcandidate, rfl⟩ := List.mem_map.mp hmem
      have hweight : candidate.2 = 0 :=
        List.sum_eq_zero_iff.mp hzero _ (List.mem_map_of_mem hcandidate)
      simp [hweight]
    rw [drawnSeats_eq hpos, ← hmissing]
    exact WeightedRandom.selectAuthoritiesTrace_reads hnone hselect

variable [LinearOrder α]

theorem weightedWithGuaranteedAssignmentTrace_reads {candidates : List (α × Weight)} {n : ℕ}
    {rand : rng.State} {selected : List α} {parts : List StreamPart}
    (h : weightedWithGuaranteedAssignmentTrace rng candidates n rand = .ok (selected, parts)) :
    selected.length = filledSeats candidates n ∧ parts.length = drawnSeats candidates n ∧
      ReadsFrom (rng.getSeed rand) 0 parts := by
  by_cases hempty : candidates.isEmpty ∨ n = 0
  · simp only [weightedWithGuaranteedAssignmentTrace, hempty, if_true] at h
    cases h
    have hfilled : filledSeats candidates n = 0 := by
      rcases hempty with hnil | rfl
      · rw [List.isEmpty_iff.mp hnil]
        rfl
      · exact ite_self 0
    have hle := drawnSeats_le_filledSeats candidates n
    exact ⟨hfilled.symm, by rw [List.length_nil]; omega, by simp [ReadsFrom]⟩
  · simp only [weightedWithGuaranteedAssignmentTrace, hempty, if_false, Fallible.bind_eq_ok_iff,
      Checked.narrow_eq_ok_iff, Checked.sub_eq_ok_iff] at h
    obtain ⟨result, hresult, _, ⟨-, rfl⟩, missing, ⟨hle, hmissing⟩, ⟨rest, read⟩, hrest, h⟩ := h
    cases h
    rw [eq_of_selectGuaranteed hresult] at hrest hmissing hle ⊢
    have hperm : (candidates.mergeSort candidateLe).Perm candidates := List.mergeSort_perm _ _
    obtain ⟨hlength, hparts, hreads⟩ := selectRemainingTrace_reads hmissing.symm hrest
    rw [← filledSeats_perm hperm, ← drawnSeats_perm hperm]
    refine ⟨?_, hparts, hreads⟩
    rw [List.length_append, hlength]
    rcases Nat.eq_zero_or_pos (totalWeight (candidates.mergeSort candidateLe)) with hzero | hpos
    · simp [filledSeats, drawnSeats, length_guaranteed, hzero, Function.comp_def]
    · rw [drawnSeats_eq hpos, filledSeats, if_neg hpos.ne']
      exact Nat.add_sub_of_le hle

/-! ## The whole selection -/

variable {registeredSeats permissionedSeats : UInt16}
  {registeredCandidates : List (α × Weight)} {permissionedCandidates : List α} {seed : Seed}

/-- The draws for the two groups and the shuffle begin at the same position. -/
theorem selectAuthoritiesTrace_reads (hregistered : registeredCandidates ≠ [])
    (hpermissioned : permissionedCandidates ≠ []) {result : Option (List α)}
    {uses : List (List StreamPart)}
    (h : selectAuthoritiesTrace rng registeredSeats permissionedSeats registeredCandidates
      permissionedCandidates seed = .ok (result, uses)) :
    ∃ registeredParts permissionedParts shuffleParts,
      uses = [registeredParts, permissionedParts, shuffleParts] ∧
      (∀ parts ∈ uses, ReadsFrom seed 0 parts) ∧
      registeredParts.length = drawnSeats registeredCandidates registeredSeats.toNat ∧
      permissionedParts.length = drawnSeats
        (permissionedCandidates.map fun candidate => (candidate, 1)) permissionedSeats.toNat ∧
      (shuffleParts = [] ↔ filledSeats registeredCandidates registeredSeats.toNat +
        permissionedSeats.toNat ≤ 1) := by
  have hboth : ¬ registeredCandidates.isEmpty ∧
      ¬ (permissionedCandidates.map fun candidate => (candidate, 1)).isEmpty := by
    simp [hregistered, hpermissioned]
  simp only [selectAuthoritiesTrace, if_pos hboth, Fallible.bind_eq_ok_iff] at h
  obtain ⟨_, -, ⟨registered, registeredParts⟩, hregisteredDraw,
    ⟨permissioned, permissionedParts⟩, hpermissionedDraw, _, hselected, h⟩ := h
  cases hselected
  cases h
  obtain ⟨hregisteredLength, hregisteredParts, hregisteredReads⟩ :=
    weightedWithGuaranteedAssignmentTrace_reads hregisteredDraw
  obtain ⟨hpermissionedLength, hpermissionedParts, hpermissionedReads⟩ :=
    weightedWithGuaranteedAssignmentTrace_reads hpermissionedDraw
  have hshuffleReads := readsFrom_read (rng.fromSeed seed)
    (rng.shuffle (registered ++ permissioned) (rng.fromSeed seed)).2
  rw [rng.getSeed_fromSeed] at hregisteredReads hpermissionedReads hshuffleReads
  rw [rng.position_fromSeed] at hshuffleReads
  refine ⟨registeredParts, permissionedParts, _, rfl, ?_, hregisteredParts, hpermissionedParts,
    ?_⟩
  · simp only [List.cons_append, List.nil_append, List.forall_mem_cons, List.not_mem_nil]
    exact ⟨hregisteredReads, hpermissionedReads, hshuffleReads, by simp⟩
  · rw [read_shuffle_eq_nil_iff, List.length_append, hregisteredLength, hpermissionedLength,
      filledSeats_permissioned hpermissioned]

/-- What the draws and the shuffle read does not overlap exactly when there is nothing to draw, or
nothing to shuffle. -/
theorem randomness_independent_iff (rng : StreamRng) (registeredSeats permissionedSeats : UInt16)
    (registeredCandidates : List (α × Weight)) (permissionedCandidates : List α) (seed : Seed)
    (hregistered : registeredCandidates ≠ []) (hpermissioned : permissionedCandidates ≠ [])
    (result : Option (List α)) (uses : List (List StreamPart))
    (hrun : selectAuthoritiesTrace rng registeredSeats permissionedSeats registeredCandidates
      permissionedCandidates seed = .ok (result, uses)) :
    Independent uses ↔
      (drawnSeats registeredCandidates registeredSeats.toNat = 0 ∧
        drawnSeats (permissionedCandidates.map fun candidate => (candidate, 1))
          permissionedSeats.toNat = 0) ∨
      filledSeats registeredCandidates registeredSeats.toNat + permissionedSeats.toNat ≤ 1 := by
  obtain ⟨registeredParts, permissionedParts, shuffleParts, rfl, hreads, hdrawn, hdrawn',
    hshuffle⟩ := selectAuthoritiesTrace_reads hregistered hpermissioned hrun
  simp only [List.forall_mem_cons] at hreads
  obtain ⟨hreads, hreads', hreadsShuffle, -⟩ := hreads
  simp only [Independent, List.pairwise_cons, List.forall_mem_cons, List.not_mem_nil,
    false_implies, implies_true, List.Pairwise.nil, and_true,
    forall_not_overlaps_iff hreads hreads', forall_not_overlaps_iff hreads hreadsShuffle,
    forall_not_overlaps_iff hreads' hreadsShuffle, hshuffle]
  rw [← hdrawn, ← hdrawn', List.length_eq_zero_iff, List.length_eq_zero_iff]
  -- two draws need two seats, and then there is something to shuffle
  have hle := drawnSeats_le_filledSeats registeredCandidates registeredSeats.toNat
  have hle' := drawnSeats_le_filledSeats
    (permissionedCandidates.map fun candidate => (candidate, 1)) permissionedSeats.toNat
  rw [filledSeats_permissioned hpermissioned, ← hdrawn'] at hle'
  rw [← hdrawn] at hle
  rw [← List.length_eq_zero_iff, ← List.length_eq_zero_iff]
  omega

/-- One candidate for the one seat of each group: there is nothing to draw. -/
theorem randomness_independent_iff_nothing_drawn :
    ∃ result uses, selectAuthoritiesTrace countingRng 1 1 [(0, 5)] [1] (.filled 32 0) =
        .ok (result, uses) ∧ Independent uses := by
  have hrun : selectAuthoritiesTrace countingRng 1 1 [((0 : ℕ), 5)] [1] (.filled 32 0) =
      .ok (some [0, 1], [[], [], [⟨.filled 32 0, 0, 1⟩]]) := by
    simp only [selectAuthoritiesTrace, weightedWithGuaranteedAssignmentTrace, List.map_cons,
      List.map_nil, List.mergeSort_singleton]
    decide
  exact ⟨_, _, hrun, (randomness_independent_iff countingRng 1 1 [(0, 5)] [1] _ (by decide)
    (by decide) _ _ hrun).mpr (.inl (by decide))⟩

/-- One seat and two candidates in each group: all three read the same. -/
theorem random_stream_read_three_times :
    selectAuthoritiesTrace countingRng 1 1 [((0 : ℕ), 1), (1, 1)] [2, 3] (.filled 32 0) =
        .ok (some [0, 2], [[⟨.filled 32 0, 0, 1⟩], [⟨.filled 32 0, 0, 1⟩],
          [⟨.filled 32 0, 0, 1⟩]]) ∧
      ¬ Independent [[⟨.filled 32 0, 0, 1⟩], [⟨.filled 32 0, 0, 1⟩],
        [⟨.filled 32 0, 0, 1⟩]] := by
  refine ⟨?_, ?_⟩
  · have hsort : [((0 : ℕ), 1), (1, 1)].mergeSort candidateLe = [(0, 1), (1, 1)] :=
      List.mergeSort_of_pairwise (by decide)
    have hsort' : [((2 : ℕ), 1), (3, 1)].mergeSort candidateLe = [(2, 1), (3, 1)] :=
      List.mergeSort_of_pairwise (by decide)
    simp only [selectAuthoritiesTrace, weightedWithGuaranteedAssignmentTrace, List.map_cons,
      List.map_nil, hsort, hsort']
    decide
  · simp [Independent, StreamPart.Overlaps]

end AriadneV2

end PartnerChains.Selection
