import PartnerChains.Algorithm.Selection

/-!
# The random stream of a selection

The same computation with a record of what it reads: each use of a generator reads a part of the
output stream of its seed.
-/

namespace PartnerChains.Selection

/-- A part of the output stream of a seed, from `first` up to but not including `last`. -/
structure StreamPart where
  seed : Seed
  first : ℕ
  last : ℕ
  deriving DecidableEq

def StreamPart.Overlaps (part part' : StreamPart) : Prop :=
  part.seed = part'.seed ∧ max part.first part'.first < min part.last part'.last

/-- A generator that reads the output stream of its seed from the beginning, and moves forward
with each use. There is nothing to read for a shuffle of less than two elements. -/
structure StreamRng extends Rng where
  position : State → ℕ
  getSeed_fromSeed : ∀ seed, getSeed (fromSeed seed) = seed
  position_fromSeed : ∀ seed, position (fromSeed seed) = 0
  position_randomRange : ∀ bound state, 0 < bound →
    position state < position (randomRange bound state).2
  position_shuffle : ∀ {α : Type} (xs : List α) (state : State), 1 < xs.length →
    position state < position (shuffle xs state).2
  position_shuffle_short : ∀ {α : Type} (xs : List α) (state : State), xs.length ≤ 1 →
    position (shuffle xs state).2 = position state

/-- What was read between two states of a generator. -/
def StreamRng.read (rng : StreamRng) (before after : rng.State) : List StreamPart :=
  if rng.position before < rng.position after then
    [⟨rng.getSeed before, rng.position before, rng.position after⟩]
  else []

/-- A generator that counts how often it was used. -/
def countingRng : StreamRng where
  State := Seed × ℕ
  fromSeed seed := (seed, 0)
  getSeed state := state.1
  randomRange bound state := (state.2 % bound, (state.1, state.2 + 1))
  shuffle xs state := (xs, (state.1, state.2 + (xs.length - 1)))
  randomRange_lt _ state h := Nat.mod_lt state.2 h
  shuffle_perm xs _ := .refl xs
  position state := state.2
  getSeed_fromSeed _ := rfl
  position_fromSeed _ := rfl
  position_randomRange _ _ _ := Nat.lt_succ_self _
  position_shuffle _ _ h := Nat.lt_add_of_pos_right (Nat.sub_pos_of_lt h)
  position_shuffle_short _ _ h := by simp [Nat.sub_eq_zero_of_le h]

variable {α : Type}
variable (rng : StreamRng)

namespace WeightedRandom

def fillSeatsTrace (rng : StreamRng) (candidates : List (α × Weight)) (totalWeight : Weight) :
    (missing : ℕ) → rng.State → List α → Except Panic (List α × List StreamPart)
  | 0, _, committee => .ok (committee, [])
  | missing + 1, rand, committee =>
      if candidates.isEmpty then .ok (committee, [])
      else do
        let (selectedIndex, rand') ← selectWithWeight rng.toRng candidates totalWeight rand
        match candidates[selectedIndex]? with
        | none => .error ⟨"index out of bounds"⟩
        | some (selected, _) => do
            let (committee, parts) ← fillSeatsTrace rng candidates totalWeight missing rand'
              (committee ++ [selected])
            .ok (committee, rng.read rand rand' ++ parts)

theorem fillSeatsTrace_result (candidates : List (α × Weight)) (totalWeight : Weight) (missing : ℕ)
    (rand : rng.State) (committee : List α) :
    Prod.fst <$> fillSeatsTrace rng candidates totalWeight missing rand committee =
      fillSeats rng.toRng candidates totalWeight missing rand committee := by
  induction missing generalizing rand committee with
  | zero => rfl
  | succ missing ih =>
      by_cases hempty : candidates.isEmpty
      · simp [fillSeatsTrace, fillSeats, hempty]
      · simp only [fillSeatsTrace, fillSeats, hempty, ← ih]
        refine (map_bind _ _ _).trans (bind_congr fun (index, rand') => ?_)
        rcases candidates[index]? with _ | ⟨selected, weight⟩
        · rfl
        · simp only [map_bind]
          rcases fillSeatsTrace rng candidates totalWeight missing rand'
            (committee ++ [selected]) with _ | ⟨filled, parts⟩ <;> rfl

def selectAuthoritiesTrace (weightedCandidates : List (α × Weight)) (seed : Seed) (size : ℕ) :
    Except Panic (Option (List α) × List StreamPart) := do
  let totalWeight ← Checked.sum 128 (weightedCandidates.map (·.2))
  let (committee, parts) ←
    fillSeatsTrace rng weightedCandidates totalWeight size (rng.fromSeed seed) []
  .ok (if size ≤ committee.length then some committee else none, parts)

theorem selectAuthoritiesTrace_result (weightedCandidates : List (α × Weight)) (seed : Seed)
    (size : ℕ) :
    Prod.fst <$> selectAuthoritiesTrace rng weightedCandidates seed size =
      selectAuthorities rng.toRng weightedCandidates seed size := by
  simp only [selectAuthoritiesTrace, selectAuthorities, ← fillSeatsTrace_result, map_bind,
    bind_map_left]
  rfl

end WeightedRandom

namespace AriadneV2

def selectRemainingTrace (weightedCandidates : List (α × Weight)) (n : ℕ) (rand : rng.State) :
    Except Panic (List α × List StreamPart) := do
  let (selected, parts) ←
    WeightedRandom.selectAuthoritiesTrace rng weightedCandidates (rng.getSeed rand) n
  .ok (selected.getD [], parts)

theorem selectRemainingTrace_result (weightedCandidates : List (α × Weight)) (n : ℕ)
    (rand : rng.State) :
    Prod.fst <$> selectRemainingTrace rng weightedCandidates n rand =
      selectRemaining rng.toRng weightedCandidates n rand := by
  simp only [selectRemainingTrace, selectRemaining,
    ← WeightedRandom.selectAuthoritiesTrace_result, map_bind, bind_map_left]
  rfl

variable [LinearOrder α]

def weightedWithGuaranteedAssignmentTrace (candidates : List (α × Weight)) (n : ℕ)
    (rand : rng.State) : Except Panic (List α × List StreamPart) :=
  if candidates.isEmpty ∨ n = 0 then .ok ([], [])
  else do
    let result ← selectGuaranteed (candidates.mergeSort candidateLe) n
    let selectedCount ← Checked.narrow 16 "selected count can not exceed u16"
      result.selected.length
    let missing ← Checked.sub n selectedCount
    let (rest, parts) ← selectRemainingTrace rng result.remaining missing rand
    .ok (result.selected ++ rest, parts)

theorem weightedWithGuaranteedAssignmentTrace_result (candidates : List (α × Weight)) (n : ℕ)
    (rand : rng.State) :
    Prod.fst <$> weightedWithGuaranteedAssignmentTrace rng candidates n rand =
      weightedWithGuaranteedAssignment rng.toRng candidates n rand := by
  simp only [weightedWithGuaranteedAssignmentTrace, weightedWithGuaranteedAssignment,
    ← selectRemainingTrace_result]
  split
  · rfl
  · simp only [map_bind, bind_map_left]
    rfl

/-- The selection with what each of its draws and the final shuffle read. -/
def selectAuthoritiesTrace (registeredSeats permissionedSeats : UInt16)
    (registeredCandidates : List (α × Weight)) (permissionedCandidates : List α) (seed : Seed) :
    Except Panic (Option (List α) × List (List StreamPart)) := do
  let seatsTotal ← Checked.add 16 permissionedSeats.toNat registeredSeats.toNat
  let rand := rng.fromSeed seed
  let permissionedCandidates := permissionedCandidates.map fun candidate => (candidate, 1)
  let (selected, draws) ←
    if ¬ registeredCandidates.isEmpty ∧ ¬ permissionedCandidates.isEmpty then do
      let (registeredSelected, registeredParts) ← weightedWithGuaranteedAssignmentTrace rng
        registeredCandidates registeredSeats.toNat rand
      let (permissionedSelected, permissionedParts) ← weightedWithGuaranteedAssignmentTrace rng
        permissionedCandidates permissionedSeats.toNat rand
      .ok (registeredSelected ++ permissionedSelected, [registeredParts, permissionedParts])
    else if registeredCandidates.isEmpty then do
      let (selected, parts) ←
        weightedWithGuaranteedAssignmentTrace rng permissionedCandidates seatsTotal rand
      .ok (selected, [parts])
    else do
      let (selected, parts) ←
        weightedWithGuaranteedAssignmentTrace rng registeredCandidates seatsTotal rand
      .ok (selected, [parts])
  let (selected, rand') := rng.shuffle selected rand
  .ok (if selected.isEmpty ∧ seatsTotal > 0 then none else some selected,
    draws ++ [rng.read rand rand'])

theorem selectAuthoritiesTrace_result (registeredSeats permissionedSeats : UInt16)
    (registeredCandidates : List (α × Weight)) (permissionedCandidates : List α) (seed : Seed) :
    Prod.fst <$> selectAuthoritiesTrace rng registeredSeats permissionedSeats
        registeredCandidates permissionedCandidates seed =
      selectAuthorities rng.toRng registeredSeats permissionedSeats registeredCandidates
        permissionedCandidates seed := by
  simp only [selectAuthoritiesTrace, selectAuthorities, selectAuthoritiesWith, Checked.addWith,
    if_true, ← weightedWithGuaranteedAssignmentTrace_result, map_bind]
  refine bind_congr fun seatsTotal => ?_
  split
  · simp only [bind_map_left, map_bind]
    rfl
  · split <;> simp only [bind_map_left, map_bind] <;> rfl

/-- Nothing is read twice: no use of the generator reads what another draw, or the shuffle,
reads too. -/
def Independent (uses : List (List StreamPart)) : Prop :=
  uses.Pairwise fun parts parts' => ∀ part ∈ parts, ∀ part' ∈ parts', ¬ part.Overlaps part'

end AriadneV2

end PartnerChains.Selection
