import PartnerChains.Algorithm.Domain

/-!
# Committee selection with guaranteed seats

Every arithmetic operation of the source is checked: one that would overflow, divide by
zero or index out of range stops the computation.
-/

namespace PartnerChains.Selection

/-- Seeds are arrays of 32 bytes. -/
abbrev Seed := Bytes 32

/-- The pseudo-random generator: a draw below a bound and a shuffle, both deterministic in
the state. -/
structure Rng where
  State : Type
  fromSeed : Seed → State
  getSeed : State → Seed
  randomRange : ℕ → State → ℕ × State
  shuffle : {α : Type} → List α → State → List α × State
  randomRange_lt : ∀ bound state, 0 < bound → (randomRange bound state).1 < bound
  shuffle_perm : ∀ {α : Type} (xs : List α) (state : State), ((shuffle xs state).1).Perm xs

/-- A generator that always draws zero and leaves the order as it is. -/
def zeroRng : Rng where
  State := Seed
  fromSeed := id
  getSeed := id
  randomRange _ state := (0, state)
  shuffle xs state := (xs, state)
  randomRange_lt _ _ h := h
  shuffle_perm xs _ := .refl xs

/-- Weights are 128-bit numbers. -/
abbrev Weight := ℕ

variable {α : Type}

/-! ## Weighted random selection -/

namespace WeightedRandom

/-- The first candidate whose cumulative weight exceeds the random number. -/
def findByCumulativeWeight (randomNumber : ℕ) :
    (index cumulativeWeight : ℕ) → List (α × Weight) → Except Panic ℕ
  | _, _, [] => .error ⟨"Did not select any candidate"⟩
  | index, cumulativeWeight, (_, weight) :: candidates => do
      let cumulativeWeight ← Checked.add 128 cumulativeWeight weight
      if cumulativeWeight > randomNumber then .ok index
      else findByCumulativeWeight randomNumber (index + 1) cumulativeWeight candidates

def selectWithWeight (rng : Rng) (candidates : List (α × Weight)) (totalWeight : Weight)
    (rand : rng.State) : Except Panic (ℕ × rng.State) :=
  if totalWeight = 0 then .error ⟨"cannot sample empty range"⟩
  else do
    let (randomNumber, rand) := rng.randomRange totalWeight rand
    let index ← findByCumulativeWeight randomNumber 0 0 candidates
    .ok (index, rand)

def fillSeats (rng : Rng) (candidates : List (α × Weight)) (totalWeight : Weight) :
    (missing : ℕ) → rng.State → List α → Except Panic (List α)
  | 0, _, committee => .ok committee
  | missing + 1, rand, committee =>
      if candidates.isEmpty then .ok committee
      else do
        let (selectedIndex, rand) ← selectWithWeight rng candidates totalWeight rand
        match candidates[selectedIndex]? with
        | none => .error ⟨"index out of bounds"⟩
        | some (selected, _) =>
            fillSeats rng candidates totalWeight missing rand (committee ++ [selected])

def selectAuthorities (rng : Rng) (weightedCandidates : List (α × Weight)) (seed : Seed)
    (size : ℕ) : Except Panic (Option (List α)) := do
  let totalWeight ← Checked.sum 128 (weightedCandidates.map (·.2))
  let committee ← fillSeats rng weightedCandidates totalWeight size (rng.fromSeed seed) []
  .ok (if size ≤ committee.length then some committee else none)

end WeightedRandom

/-! ## Selection with guaranteed seats -/

namespace AriadneV2

structure SelectGuaranteedResult (α : Type) where
  selected : List α
  remaining : List (α × Weight)

/-- One candidate gets the whole part of its share and keeps the rest of its weight. -/
def assignGuaranteed (threshold scale : ℕ) (result : SelectGuaranteedResult α)
    (candidate : α × Weight) : Except Panic (SelectGuaranteedResult α) := do
  let weight ← Checked.mul 128 candidate.2 scale
  let share ← Checked.div weight threshold
  let guaranteed ← Checked.narrow 64 "fits u16" share
  let remainingWeight ← Checked.rem weight threshold
  .ok { selected := result.selected ++ List.replicate guaranteed candidate.1
        remaining := if remainingWeight > 0
          then result.remaining ++ [(candidate.1, remainingWeight)] else result.remaining }

def selectGuaranteed (weightedCandidates : List (α × Weight)) (n : ℕ) :
    Except Panic (SelectGuaranteedResult α) := do
  let threshold ← Checked.sum 128 (weightedCandidates.map (·.2))
  (weightedCandidates.filter fun candidate => candidate.2 > 0).foldlM
    (assignGuaranteed threshold n) ⟨[], []⟩

/-- The generator itself is not advanced: only its seed is read. -/
def selectRemaining (rng : Rng) (weightedCandidates : List (α × Weight)) (n : ℕ)
    (rand : rng.State) : Except Panic (List α) := do
  let selected ← WeightedRandom.selectAuthorities rng weightedCandidates (rng.getSeed rand) n
  .ok (selected.getD [])

def candidateLe [LinearOrder α] (a b : α × Weight) : Bool :=
  decide (toLex a ≤ toLex b)

def weightedWithGuaranteedAssignment [LinearOrder α] (rng : Rng)
    (candidates : List (α × Weight)) (n : ℕ) (rand : rng.State) : Except Panic (List α) :=
  if candidates.isEmpty ∨ n = 0 then .ok []
  else do
    let result ← selectGuaranteed (candidates.mergeSort candidateLe) n
    let selectedCount ← Checked.narrow 16 "selected count can not exceed u16"
      result.selected.length
    let missing ← Checked.sub n selectedCount
    let rest ← selectRemaining rng result.remaining missing rand
    .ok (result.selected ++ rest)

/-- The selection of a build that checks for overflow, or of one in which the total number of
seats wraps around. -/
def selectAuthoritiesWith [LinearOrder α] (overflowChecks : Bool) (rng : Rng)
    (registeredSeats permissionedSeats : UInt16) (registeredCandidates : List (α × Weight))
    (permissionedCandidates : List α) (seed : Seed) : Except Panic (Option (List α)) := do
  let seatsTotal ←
    Checked.addWith overflowChecks 16 permissionedSeats.toNat registeredSeats.toNat
  let rand := rng.fromSeed seed
  let permissionedCandidates := permissionedCandidates.map fun candidate => (candidate, 1)
  let selected ←
    if ¬ registeredCandidates.isEmpty ∧ ¬ permissionedCandidates.isEmpty then do
      let registeredSelected ←
        weightedWithGuaranteedAssignment rng registeredCandidates registeredSeats.toNat rand
      let permissionedSelected ←
        weightedWithGuaranteedAssignment rng permissionedCandidates permissionedSeats.toNat rand
      .ok (registeredSelected ++ permissionedSelected)
    else if registeredCandidates.isEmpty then
      weightedWithGuaranteedAssignment rng permissionedCandidates seatsTotal rand
    else weightedWithGuaranteedAssignment rng registeredCandidates seatsTotal rand
  let (selected, _) := rng.shuffle selected rand
  .ok (if selected.isEmpty ∧ seatsTotal > 0 then none else some selected)

/-- The selection of a build that checks for overflow. -/
def selectAuthorities [LinearOrder α] (rng : Rng) (registeredSeats permissionedSeats : UInt16)
    (registeredCandidates : List (α × Weight)) (permissionedCandidates : List α) (seed : Seed) :
    Except Panic (Option (List α)) :=
  selectAuthoritiesWith true rng registeredSeats permissionedSeats registeredCandidates
    permissionedCandidates seed

end AriadneV2

end PartnerChains.Selection
