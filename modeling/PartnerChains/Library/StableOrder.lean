import Mathlib

/-!
# Stable sorting and the last element

Elements of equal keys keep their order when a list is sorted by a key. Filtering therefore
commutes with sorting, and the last element is the last one of those with the greatest key.
-/

namespace PartnerChains.StableOrder

variable {α κ : Type*} [LinearOrder κ] (key : α → κ) (p : α → Bool)

def sortByKey (xs : List α) : List α :=
  xs.insertionSort fun a b => key a ≤ key b

variable {key}

theorem sortByKey_cons (x : α) (xs : List α) :
    sortByKey key (x :: xs) = (sortByKey key xs).orderedInsert (fun a b => key a ≤ key b) x := rfl

@[simp]
theorem mem_sortByKey {xs : List α} {x : α} : x ∈ sortByKey key xs ↔ x ∈ xs :=
  List.mem_insertionSort _

theorem pairwise_sortByKey (xs : List α) :
    (sortByKey key xs).Pairwise fun a b => key a ≤ key b := by
  have : Std.Total fun a b : α => key a ≤ key b := ⟨fun a b => le_total (key a) (key b)⟩
  have : IsTrans α fun a b => key a ≤ key b := ⟨fun _ _ _ => le_trans⟩
  exact List.pairwise_insertionSort _ xs

theorem sortByKey_perm (xs : List α) : (sortByKey key xs).Perm xs :=
  List.perm_insertionSort _ xs

/-- When elements with the same key are equal, sorting forgets the order. -/
theorem sortByKey_eq_of_perm (hkey : Function.Injective key) {xs ys : List α} (h : xs.Perm ys) :
    sortByKey key xs = sortByKey key ys := by
  refine List.Perm.eq_of_pairwise ?_ (pairwise_sortByKey xs) (pairwise_sortByKey ys) ?_
  · intro a b _ _ hab hba
    exact hkey (le_antisymm hab hba)
  · exact (sortByKey_perm xs).trans (h.trans (sortByKey_perm ys).symm)

theorem filter_orderedInsert (x : α) {xs : List α} (h : xs.Pairwise fun a b => key a ≤ key b) :
    (xs.orderedInsert (fun a b => key a ≤ key b) x).filter p =
      if p x then (xs.filter p).orderedInsert (fun a b => key a ≤ key b) x else xs.filter p := by
  induction xs with
  | nil => simp [List.filter_cons]
  | cons y xs ih =>
      rw [List.pairwise_cons] at h
      rw [List.orderedInsert_cons]
      by_cases hle : key x ≤ key y
      · -- nothing in the list is below the inserted element, so nothing left in it is
        have hbelow : ∀ z ∈ (y :: xs).filter p, key x ≤ key z := by
          intro z hz
          rcases List.mem_cons.mp (List.mem_of_mem_filter hz) with rfl | hz
          · exact hle
          · exact hle.trans (h.1 z hz)
        rw [if_pos hle, List.filter_cons]
        cases hrest : (y :: xs).filter p with
        | nil => rfl
        | cons z zs =>
            rw [List.orderedInsert_cons, if_pos (hbelow z (by simp [hrest]))]
      · rw [if_neg hle, List.filter_cons, List.filter_cons, ih h.2]
        split_ifs
        · rw [List.orderedInsert_cons, if_neg hle]
        · rfl
        · rfl
        · rfl

theorem filter_sortByKey (xs : List α) :
    (sortByKey key xs).filter p = sortByKey key (xs.filter p) := by
  induction xs with
  | nil => rfl
  | cons x xs ih =>
      rw [sortByKey_cons, filter_orderedInsert p x (pairwise_sortByKey xs), ih, List.filter_cons]
      split_ifs
      · rw [sortByKey_cons]
      · rfl

/-- The element that is later in the list goes first, unless its key is below the other one. -/
theorem getLast?_sortByKey_cons (x : α) (xs : List α) :
    (sortByKey key (x :: xs)).getLast? =
      some ((sortByKey key xs).getLast?.elim x fun y => if key y < key x then x else y) := by
  have hsorted : (sortByKey key xs).Pairwise fun y z => key y ≤ key z := pairwise_sortByKey xs
  rw [sortByKey_cons]
  generalize sortByKey key xs = sorted at hsorted
  induction sorted with
  | nil => rfl
  | cons y sorted ih =>
      rw [List.pairwise_cons] at hsorted
      rw [List.orderedInsert_cons]
      cases sorted with
      | nil =>
          split_ifs with hle
          · simp [hle.not_gt]
          · simp [not_le.mp hle]
      | cons z sorted =>
          specialize ih hsorted.2
          rw [List.getLast?_cons_cons]
          split_ifs with hle
          · obtain ⟨last, hlast⟩ : ∃ last, (z :: sorted).getLast? = some last :=
              ⟨_, List.getLast?_eq_some_getLast (List.cons_ne_nil z sorted)⟩
            have hle' : key x ≤ key last := hle.trans (hsorted.1 last (List.mem_of_getLast? hlast))
            rw [List.getLast?_cons_cons, List.getLast?_cons_cons, hlast]
            simp [hle'.not_gt]
          · rw [← ih]
            cases hinsert : (z :: sorted).orderedInsert (fun a b => key a ≤ key b) x with
            | nil =>
                have hlength := (z :: sorted).orderedInsert_length (fun a b => key a ≤ key b) x
                simp [hinsert] at hlength
            | cons => exact List.getLast?_cons_cons

/-! ## The last position -/

/-- The position of the last element that satisfies the predicate. -/
def rposition : List α → Option ℕ
  | [] => none
  | x :: xs =>
      match rposition xs with
      | some i => some (i + 1)
      | none => if p x then some 0 else none

variable {p}

theorem rposition_eq_none_iff {xs : List α} :
    rposition p xs = none ↔ ∀ x ∈ xs, p x = false := by
  induction xs with
  | nil => simp [rposition]
  | cons x xs ih =>
      rw [List.forall_mem_cons, ← ih, rposition]
      cases rposition p xs <;> simp

/-- What is left after the elements before that position. -/
theorem exists_drop_rposition {xs : List α} {i : ℕ} (h : rposition p xs = some i) :
    ∃ x later, xs.drop i = x :: later ∧ (xs.filter p).getLast? = some x ∧
      ∀ y ∈ later, p y = false := by
  induction xs generalizing i with
  | nil => cases h
  | cons first xs ih =>
      rw [rposition] at h
      cases hrest : rposition p xs with
      | some j =>
          obtain ⟨x, later, hdrop, hlast, hlater⟩ := ih hrest
          simp only [hrest, Option.some.injEq] at h
          subst h
          refine ⟨x, later, by rwa [List.drop_succ_cons], ?_, hlater⟩
          rw [List.filter_cons]
          split_ifs
          · rw [List.getLast?_cons, hlast, Option.getD_some]
          · exact hlast
      | none =>
          simp only [hrest, Option.ite_none_right_eq_some, Option.some.injEq] at h
          obtain ⟨hfirst, rfl⟩ := h
          have hlater := rposition_eq_none_iff.mp hrest
          have hnone : xs.filter p = [] := by simpa [List.filter_eq_nil_iff] using hlater
          exact ⟨first, xs, rfl, by simp [hfirst, hnone], hlater⟩

end PartnerChains.StableOrder
