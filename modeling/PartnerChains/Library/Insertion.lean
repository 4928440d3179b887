import PartnerChains.Library.Fallible

/-! # Lists into which elements are inserted

A search does not see inserted elements that it finds nothing in. -/

namespace PartnerChains

/-- `Inserted added xs ys`: `ys` has the elements of `xs` and those of `added`, in any
interleaving. -/
inductive Inserted {α : Type*} : List α → List α → List α → Prop
  | nil : Inserted [] [] []
  | keep {added xs ys : List α} (x : α) : Inserted added xs ys → Inserted added (x :: xs) (x :: ys)
  | insert {added xs ys : List α} (x : α) :
      Inserted added xs ys → Inserted (x :: added) xs (x :: ys)

namespace Inserted

variable {α β ε : Type*} {added xs ys : List α}

theorem alone (added : List α) : Inserted added [] added := by
  induction added with
  | nil => exact .nil
  | cons x added ih => exact .insert x ih

theorem find?_eq {p : α → Bool} (h : Inserted added xs ys) (hnone : ∀ x ∈ added, ¬ p x) :
    ys.find? p = xs.find? p := by
  induction h with
  | nil => rfl
  | keep x _ ih => simp only [List.find?_cons, ih hnone]
  | insert x _ ih =>
      rw [List.forall_mem_cons] at hnone
      rw [List.find?_cons_of_neg hnone.1, ih hnone.2]

theorem findSome?_eq {f : α → Option β} (h : Inserted added xs ys)
    (hnone : ∀ x ∈ added, f x = none) : ys.findSome? f = xs.findSome? f := by
  induction h with
  | nil => rfl
  | keep x _ ih => simp only [List.findSome?_cons, ih hnone]
  | insert x _ ih =>
      rw [List.forall_mem_cons] at hnone
      rw [List.findSome?_cons_of_isNone (by simp [hnone.1]), ih hnone.2]

theorem findSomeM?_eq {f : α → Except ε (Option β)} (h : Inserted added xs ys)
    (hnone : ∀ x ∈ added, f x = .ok none) : ys.findSomeM? f = xs.findSomeM? f := by
  induction h with
  | nil => rfl
  | keep x _ ih => simp only [List.findSomeM?_cons, ih hnone]
  | insert x _ ih =>
      rw [List.forall_mem_cons] at hnone
      rw [List.findSomeM?_cons, hnone.1, ← ih hnone.2]
      rfl

theorem filterMapM_eq {f : α → Except ε (Option β)} (h : Inserted added xs ys)
    (hnone : ∀ x ∈ added, f x = .ok none) : ys.filterMapM f = xs.filterMapM f := by
  induction h with
  | nil => rfl
  | keep x _ ih => simp only [List.filterMapM_cons, ih hnone]
  | insert x _ ih =>
      rw [List.forall_mem_cons] at hnone
      rw [List.filterMapM_cons, hnone.1, ← ih hnone.2]
      rfl

end Inserted

end PartnerChains
