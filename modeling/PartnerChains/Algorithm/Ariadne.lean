import PartnerChains.Algorithm.Selection

/-!
# The original committee selection

All seats are drawn from one weighted list. The weights are scaled so that both kinds of
candidates are drawn in the ratio of the two numbers of seats.
-/

namespace PartnerChains.Selection.Ariadne

variable {α : Type}

def trustlessCandidatesWithWeights (trustlessCandidates : List (α × Weight))
    (numTrustlessCandidates : UInt16) (permissionedCandidatesCount : ℕ) :
    Except Panic (List (α × Weight)) := do
  let weightFactor ←
    (if permissionedCandidatesCount > 0 then
      Checked.mul 128 numTrustlessCandidates.toNat permissionedCandidatesCount
    else .ok 1)
  trustlessCandidates.mapM fun (candidate, weight) => do
    let weight ← Checked.mul 128 weight weightFactor
    .ok (candidate, weight)

def permissionedCandidatesWithWeights (permissionedCandidates : List α)
    (numPermissionedCandidates numTrustlessCandidates : UInt16) (totalStake : ℕ) :
    Except Panic (List (α × Weight)) := do
  let weight ←
    (if totalStake > 0 ∧ numTrustlessCandidates > 0 then
      Checked.mul 128 numPermissionedCandidates.toNat totalStake
    else .ok 1)
  .ok (permissionedCandidates.map fun candidate => (candidate, weight))

def selectAuthorities [LinearOrder α] (rng : Rng)
    (numTrustlessCandidates numPermissionedCandidates : UInt16)
    (trustlessCandidates : List (α × Weight)) (permissionedCandidates : List α) (seed : Seed) :
    Except Panic (Option (List α)) := do
  let committeeSize ←
    Checked.add 16 numTrustlessCandidates.toNat numPermissionedCandidates.toNat
  let totalStake ← Checked.sum 128 (trustlessCandidates.map (·.2))
  let trustlessCandidates ← trustlessCandidatesWithWeights trustlessCandidates
    numTrustlessCandidates permissionedCandidates.length
  let permissionedCandidates ← permissionedCandidatesWithWeights permissionedCandidates
    numPermissionedCandidates numTrustlessCandidates totalStake
  let weightedCandidates := (trustlessCandidates ++ permissionedCandidates).mergeSort
    AriadneV2.candidateLe
  WeightedRandom.selectAuthorities rng weightedCandidates seed committeeSize

end PartnerChains.Selection.Ariadne
