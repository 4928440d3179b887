import Mathlib

/-!
# Occurrences and distinct elements

How many entries of a list are in a set, against how many different elements of the list are.
The two numbers agree for all sets exactly when the list has no element twice.
-/

namespace PartnerChains.DistinctCount

variable {α : Type*} [DecidableEq α] {xs : List α} {set : Finset α}

/-- The number of entries of the list that are in the set. -/
def occurrences (xs : List α) (set : Finset α) : ℕ := xs.countP (· ∈ set)

/-- The number of different elements of the list that are in the set. -/
def distinct (xs : List α) (set : Finset α) : ℕ := (xs.toFinset ∩ set).card

theorem occurrences_eq_length : occurrences xs set = (xs.filter (· ∈ set)).length :=
  List.countP_eq_length_filter

theorem distinct_eq_card : distinct xs set = (xs.filter (· ∈ set)).toFinset.card := by
  simp [distinct, List.toFinset_filter, Finset.filter_mem_eq_inter]

theorem distinct_le_occurrences : distinct xs set ≤ occurrences xs set := by
  rw [occurrences_eq_length, distinct_eq_card]
  exact List.toFinset_card_le _

theorem distinct_eq_occurrences_iff :
    distinct xs set = occurrences xs set ↔ (xs.filter (· ∈ set)).Nodup := by
  rw [occurrences_eq_length, distinct_eq_card]
  exact Multiset.toFinset_card_eq_card_iff_nodup

theorem distinct_eq_occurrences_of_nodup (h : xs.Nodup) : distinct xs set = occurrences xs set :=
  distinct_eq_occurrences_iff.mpr (h.filter _)

/-- A repeated element in the set is counted more than once. -/
theorem distinct_lt_occurrences {x : α} (hx : x ∈ set) (hrepeated : 2 ≤ xs.count x) :
    distinct xs set < occurrences xs set := by
  refine lt_of_le_of_ne distinct_le_occurrences fun heq => ?_
  have honce := List.nodup_iff_count_le_one.mp (distinct_eq_occurrences_iff.mp heq) x
  rw [List.count_filter (by simpa using hx)] at honce
  omega

/-- With a repeated element, a number of occurrences from two on can be reached with fewer
different elements. -/
theorem exists_distinct_lt {number : ℕ} (hrepeated : ¬ xs.Nodup) (htwo : 2 ≤ number)
    (hlength : number ≤ xs.length) :
    ∃ set, number ≤ occurrences xs set ∧ distinct xs set < number := by
  obtain ⟨x, hx⟩ : ∃ x, 2 ≤ xs.count x := by
    by_contra hall
    push Not at hall
    exact hrepeated (List.nodup_iff_count_le_one.mpr fun x => Nat.lt_succ_iff.mp (hall x))
  -- a smallest set around the repeated element that has enough occurrences
  have hwhole : x ∈ insert x xs.toFinset ∧ number ≤ occurrences xs (insert x xs.toFinset) := by
    refine ⟨Finset.mem_insert_self _ _, hlength.trans_eq ?_⟩
    rw [occurrences, eq_comm, List.countP_eq_length]
    intro y hy
    simp [hy]
  obtain ⟨set, ⟨hmem, henough⟩, hminimal⟩ := exists_minimal_of_wellFoundedLT
    (fun set : Finset α => x ∈ set ∧ number ≤ occurrences xs set) ⟨_, hwhole⟩
  refine ⟨set, henough, ?_⟩
  by_cases hsingle : set = {x}
  · have hone : distinct xs set ≤ 1 := by
      rw [hsingle]
      exact (Finset.card_le_card Finset.inter_subset_right).trans_eq (Finset.card_singleton x)
    omega
  · obtain ⟨y, hy, hne⟩ : ∃ y ∈ set, y ≠ x := by
      by_contra hall
      push Not at hall
      exact hsingle (Finset.eq_singleton_iff_unique_mem.mpr ⟨hmem, hall⟩)
    -- without `y` there are too few occurrences, and still more than different elements
    have hless : occurrences xs (set.erase y) < number := by
      by_contra hge
      have hback := hminimal ⟨Finset.mem_erase.mpr ⟨hne.symm, hmem⟩, not_lt.mp hge⟩
        (Finset.erase_subset y set)
      exact Finset.notMem_erase y set (hback hy)
    have hsurplus := distinct_lt_occurrences (Finset.mem_erase.mpr ⟨hne.symm, hmem⟩) hx
    have hgrow : distinct xs set ≤ distinct xs (set.erase y) + 1 := by
      rw [distinct, distinct, Finset.inter_erase]
      have hpred := Finset.pred_card_le_card_erase (s := xs.toFinset ∩ set) (a := y)
      omega
    omega

end PartnerChains.DistinctCount
