import Mathlib

/-!
# Intervals of weights laid end to end

Each entry of a list owns as many numbers as it has weight, one entry after the other. A number
drawn uniformly below the total weight thus falls to an owner in proportion to its weight.
-/

namespace PartnerChains.CumulativeWeight

variable {α : Type*}

def total (entries : List (α × ℕ)) : ℕ := (entries.map (·.2)).sum

/-- The owner of the interval that a number falls into. -/
def owner : List (α × ℕ) → ℕ → Option α
  | [], _ => none
  | (a, weight) :: entries, number =>
      if number < weight then some a else owner entries (number - weight)

@[simp]
theorem total_cons (entry : α × ℕ) (entries : List (α × ℕ)) :
    total (entry :: entries) = entry.2 + total entries := by
  simp [total]

/-- Exactly the numbers below the total weight have an owner. -/
theorem owner_isSome_iff {entries : List (α × ℕ)} {number : ℕ} :
    (owner entries number).isSome ↔ number < total entries := by
  induction entries generalizing number with
  | nil => simp [owner, total]
  | cons entry entries ih =>
      obtain ⟨a, weight⟩ := entry
      by_cases hlt : number < weight
      · simp only [owner, hlt, if_true, Option.isSome_some, total_cons, true_iff]
        omega
      · simp only [owner, hlt, if_false, ih, total_cons]
        omega

section Count

variable [DecidableEq α]

/-- The weight of all entries of an owner. -/
def weightOf (entries : List (α × ℕ)) (a : α) : ℕ := total (entries.filter (·.1 = a))

theorem weightOf_cons (entry : α × ℕ) (entries : List (α × ℕ)) (a : α) :
    weightOf (entry :: entries) a = (if entry.1 = a then entry.2 else 0) + weightOf entries a := by
  by_cases h : entry.1 = a <;> simp [weightOf, h]

/-- The numbers that fall to an owner. -/
def ownedNumbers (entries : List (α × ℕ)) (a : α) : Finset ℕ :=
  (Finset.range (total entries)).filter fun number => owner entries number = some a

/-- The interval of the first entry comes before those of the others. -/
theorem ownedNumbers_cons (entry : α × ℕ) (entries : List (α × ℕ)) (a : α) :
    ownedNumbers (entry :: entries) a =
      ((Finset.range entry.2).filter fun _ => entry.1 = a) ∪
        (ownedNumbers entries a).map (addLeftEmbedding entry.2) := by
  ext number
  simp only [ownedNumbers, total_cons, Finset.mem_filter, Finset.mem_range, Finset.mem_union,
    Finset.mem_map, addLeftEmbedding_apply]
  by_cases hlt : number < entry.2
  · have hbelow : ∀ rest, entry.2 + rest ≠ number := by omega
    simp [owner, hlt, hbelow]
    omega
  · simp only [owner, hlt, if_false, false_and, false_or]
    constructor
    · rintro ⟨htotal, howner⟩
      exact ⟨number - entry.2, ⟨by omega, howner⟩, by omega⟩
    · rintro ⟨rest, ⟨hrest, howner⟩, rfl⟩
      exact ⟨by omega, by rwa [Nat.add_sub_cancel_left]⟩

/-- An owner has as many numbers as it has weight. -/
theorem card_ownedNumbers (entries : List (α × ℕ)) (a : α) :
    (ownedNumbers entries a).card = weightOf entries a := by
  induction entries with
  | nil => simp [ownedNumbers, weightOf, total]
  | cons entry entries ih =>
      have hdisjoint : Disjoint ((Finset.range entry.2).filter fun _ => entry.1 = a)
          ((ownedNumbers entries a).map (addLeftEmbedding entry.2)) := by
        refine Finset.disjoint_left.mpr fun number hhead hrest => ?_
        simp only [Finset.mem_filter, Finset.mem_range, Finset.mem_map,
          addLeftEmbedding_apply] at hhead hrest
        obtain ⟨rest, -, rfl⟩ := hrest
        omega
      rw [ownedNumbers_cons, Finset.card_union_of_disjoint hdisjoint, Finset.card_map, ih,
        weightOf_cons]
      by_cases h : entry.1 = a <;> simp [h]

end Count

end PartnerChains.CumulativeWeight
