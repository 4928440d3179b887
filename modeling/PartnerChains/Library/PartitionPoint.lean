import Mathlib

/-!
# Partition points

The partition point of a list is the length of the part in front that meets a predicate,
when nothing after that part meets it. It is found by binary search.
-/

namespace PartnerChains

/-- A function that finds partition points, as documented: nothing is known about its result
on a list that is not partitioned. -/
structure PartitionPoint (α : Type*) where
  find : (α → Bool) → List α → ℕ
  find_append : ∀ (p : α → Bool) (front rest : List α), (∀ x ∈ front, p x = true) →
    (∀ x ∈ rest, p x = false) → find p (front ++ rest) = front.length

namespace PartitionPoint

variable {α : Type*} {p : α → Bool} {xs : List α}

/-- The elements that meet the predicate are all in front. -/
def Partitioned (p : α → Bool) (xs : List α) : Prop :=
  ∀ x ∈ xs.dropWhile p, p x = false

variable (search : PartitionPoint α)

theorem find_eq_length_takeWhile (h : Partitioned p xs) :
    search.find p xs = (xs.takeWhile p).length := by
  have hfind := search.find_append p (xs.takeWhile p) (xs.dropWhile p)
    (fun _ hx => List.mem_takeWhile_imp hx) h
  rwa [List.takeWhile_append_dropWhile] at hfind

theorem take_find (h : Partitioned p xs) :
    xs.take (search.find p xs) = xs.takeWhile p := by
  rw [search.find_eq_length_takeWhile h]
  nth_rewrite 2 [← List.takeWhile_append_dropWhile (p := p) (l := xs)]
  exact List.take_left

theorem drop_find (h : Partitioned p xs) :
    xs.drop (search.find p xs) = xs.dropWhile p := by
  rw [search.find_eq_length_takeWhile h]
  nth_rewrite 2 [← List.takeWhile_append_dropWhile (p := p) (l := xs)]
  exact List.drop_left

/-- A list is partitioned when the predicate passes on from each element to those before. -/
theorem partitioned_of_pairwise (h : xs.Pairwise fun a b => p b = true → p a = true) :
    Partitioned p xs := by
  induction xs with
  | nil => intro x hx; cases hx
  | cons x xs ih =>
      obtain ⟨hback, hrest⟩ := List.pairwise_cons.mp h
      by_cases hp : p x = true
      · intro y hy
        rw [List.dropWhile_cons_of_pos hp] at hy
        exact ih hrest y hy
      · intro y hy
        rw [List.dropWhile_cons_of_neg hp] at hy
        rcases List.mem_cons.mp hy with rfl | hmem
        · simpa using hp
        · exact Bool.eq_false_iff.mpr fun hpy => hp (hback y hmem hpy)

/-- A sorted list is partitioned by every bound on its keys. -/
theorem partitioned_of_sorted {κ : Type*} [LinearOrder κ] {key : α → κ}
    (h : xs.Pairwise fun a b => key a < key b) (bound : κ) :
    Partitioned (fun x => decide (key x ≤ bound)) xs := by
  refine partitioned_of_pairwise (h.imp fun hlt hle => ?_)
  exact decide_eq_true (hlt.le.trans (of_decide_eq_true hle))

theorem Partitioned.takeWhile_eq_filter (h : Partitioned p xs) :
    xs.takeWhile p = xs.filter p := by
  conv_rhs => rw [← List.takeWhile_append_dropWhile (p := p) (l := xs), List.filter_append]
  rw [List.filter_eq_self.mpr fun _ hx => List.mem_takeWhile_imp hx,
    List.filter_eq_nil_iff.mpr fun x hx => by simp [h x hx], List.append_nil]

theorem Partitioned.dropWhile_eq_filter (h : Partitioned p xs) :
    xs.dropWhile p = xs.filter fun x => !p x := by
  conv_rhs => rw [← List.takeWhile_append_dropWhile (p := p) (l := xs), List.filter_append]
  rw [List.filter_eq_nil_iff.mpr fun x hx => by simp [List.mem_takeWhile_imp hx],
    List.filter_eq_self.mpr fun x hx => by simp [h x hx], List.nil_append]

/-! ## Insertion into an increasing list -/

section Increasing

variable [LT α] [DecidableLT α] [IsTrans α (· < ·)] [Std.Irrefl fun a b : α => a < b]
  [Std.Trichotomous fun a b : α => a < b] {x : α}

omit [Std.Irrefl fun a b : α => a < b] [Std.Trichotomous fun a b : α => a < b] in
theorem partitioned_of_increasing (h : xs.Pairwise (· < ·)) (x : α) :
    Partitioned (fun y => decide (y < x)) xs := by
  refine partitioned_of_pairwise (h.imp fun hlt hle => ?_)
  exact decide_eq_true (Trans.trans hlt (of_decide_eq_true hle))

omit [Std.Trichotomous fun a b : α => a < b] in
/-- An increasing list that has an element has it at the partition point. -/
theorem getElem?_find_eq_some_iff (h : xs.Pairwise (· < ·)) :
    xs[search.find (· < x) xs]? = some x ↔ x ∈ xs := by
  have hpart := partitioned_of_increasing h x
  constructor
  · exact List.mem_of_getElem?
  · intro hx
    have hrest : x ∈ xs.dropWhile (fun y => decide (y < x)) := by
      rw [hpart.dropWhile_eq_filter]
      simpa [hx] using irrefl x
    rw [← List.head?_drop, drop_find search hpart]
    -- of the elements that are not below `x`, the first one is `x` itself
    cases hlist : xs.dropWhile (fun y => decide (y < x)) with
    | nil =>
        rw [hlist] at hrest
        cases hrest
    | cons y ys =>
        have hsorted : (y :: ys).Pairwise (· < ·) := hlist ▸ h.sublist (List.dropWhile_sublist _)
        have hy : ¬ y < x := by simpa using hpart y (by simp [hlist])
        rw [hlist] at hrest
        rcases List.mem_cons.mp hrest with rfl | hmem
        · rfl
        · exact absurd (List.rel_of_pairwise_cons hsorted hmem) hy

theorem insertIdx_length_append {β : Type*} (front rest : List β) (x : β) :
    (front ++ rest).insertIdx front.length x = front ++ x :: rest := by
  induction front with
  | nil => simp
  | cons y front ih => simp [ih]

omit [Std.Irrefl fun a b : α => a < b] [Std.Trichotomous fun a b : α => a < b] in
theorem insertIdx_find (h : xs.Pairwise (· < ·)) :
    xs.insertIdx (search.find (· < x) xs) x =
      xs.takeWhile (fun y => decide (y < x)) ++ x :: xs.dropWhile fun y => decide (y < x) := by
  rw [find_eq_length_takeWhile search (partitioned_of_increasing h x),
    ← insertIdx_length_append, List.takeWhile_append_dropWhile]

omit [Std.Irrefl fun a b : α => a < b] [Std.Trichotomous fun a b : α => a < b] in
theorem mem_insertIdx_find (h : xs.Pairwise (· < ·)) {y : α} :
    y ∈ xs.insertIdx (search.find (· < x) xs) x ↔ y = x ∨ y ∈ xs := by
  rw [insertIdx_find search h, List.mem_append, List.mem_cons, or_left_comm, ← List.mem_append,
    List.takeWhile_append_dropWhile]

omit [Std.Irrefl fun a b : α => a < b] in
theorem pairwise_insertIdx_find (h : xs.Pairwise (· < ·)) (hx : x ∉ xs) :
    (xs.insertIdx (search.find (· < x) xs) x).Pairwise (· < ·) := by
  have hpart := partitioned_of_increasing h x
  have hlow : ∀ y ∈ xs.takeWhile (fun y => decide (y < x)), y < x := by
    intro y hy
    simpa using List.mem_takeWhile_imp hy
  have hhigh : ∀ y ∈ xs.dropWhile (fun y => decide (y < x)), x < y := by
    intro y hy
    have hnot : ¬ y < x := by simpa using hpart y hy
    have hmem : y ∈ xs := (List.dropWhile_sublist _).mem hy
    by_contra hle
    obtain rfl : x = y := Std.Trichotomous.trichotomous x y hle hnot
    exact hx hmem
  rw [insertIdx_find search h, List.pairwise_append, List.pairwise_cons]
  refine ⟨h.sublist (List.takeWhile_sublist _), ⟨hhigh, h.sublist (List.dropWhile_sublist _)⟩, ?_⟩
  intro y hy z hz
  rcases List.mem_cons.mp hz with rfl | hz
  · exact hlow y hy
  · exact Trans.trans (hlow y hy) (hhigh z hz)

end Increasing

/-! ## Binary search -/

/-- The loop halves the part of the list that starts at `base` until one element is left. -/
def bisect (p : α → Bool) (xs : List α) : ℕ → ℕ → ℕ → ℕ
  | 0, base, _ => base
  | fuel + 1, base, size =>
      if size ≤ 1 then base
      else
        let half := size / 2
        let mid := base + half
        bisect p xs fuel (if xs[mid]?.any p then mid else base) (size - half)

def bisectFind (p : α → Bool) (xs : List α) : ℕ :=
  if xs.isEmpty then 0
  else
    let base := bisect p xs xs.length 0 xs.length
    if xs[base]?.any p then base + 1 else base

section Bisect

variable {front rest : List α}

theorem any_getElem?_append (hfront : ∀ x ∈ front, p x = true) (hrest : ∀ x ∈ rest, p x = false)
    (i : ℕ) : ((front ++ rest)[i]?).any p = decide (i < front.length) := by
  by_cases hi : i < front.length
  · rw [List.getElem?_append_left hi, List.getElem?_eq_getElem hi]
    simp [hi, hfront _ (List.getElem_mem hi)]
  · rw [List.getElem?_append_right (not_lt.mp hi)]
    cases hget : rest[i - front.length]? with
    | none => simp [hi]
    | some x => simp [hi, hrest x (List.mem_of_getElem? hget)]

/-- The partition point stays in the part that is searched. -/
theorem bisect_spec (hfront : ∀ x ∈ front, p x = true) (hrest : ∀ x ∈ rest, p x = false)
    (fuel base size : ℕ) (hfuel : size ≤ fuel + 1) (hpos : 0 < size)
    (hbase : base ≤ front.length) (hsize : front.length ≤ base + size)
    (hlow : base = 0 ∨ base < front.length) :
    let found := bisect p (front ++ rest) fuel base size
    found ≤ front.length ∧ front.length ≤ found + 1 ∧ (found = 0 ∨ found < front.length) := by
  induction fuel generalizing base size with
  | zero => exact ⟨hbase, by simp only [bisect]; omega, hlow⟩
  | succ fuel ih =>
      simp only [bisect]
      split_ifs with hone hmid
      · exact ⟨hbase, by omega, hlow⟩
      · rw [any_getElem?_append hfront hrest, decide_eq_true_eq] at hmid
        exact ih (base + size / 2) (size - size / 2) (by omega) (by omega) (by omega) (by omega)
          (.inr hmid)
      · rw [any_getElem?_append hfront hrest, decide_eq_true_eq] at hmid
        exact ih base (size - size / 2) (by omega) (by omega) hbase (by omega) hlow

theorem bisectFind_append (hfront : ∀ x ∈ front, p x = true) (hrest : ∀ x ∈ rest, p x = false) :
    bisectFind p (front ++ rest) = front.length := by
  cases hempty : (front ++ rest).isEmpty with
  | true =>
      obtain ⟨rfl, rfl⟩ := List.append_eq_nil_iff.mp (List.isEmpty_iff.mp hempty)
      rfl
  | false =>
      have hlength : 0 < (front ++ rest).length := by
        rw [List.length_pos_iff]
        simpa using hempty
      have hspec := bisect_spec hfront hrest (front ++ rest).length 0 (front ++ rest).length
        (by omega) hlength (Nat.zero_le _) (by simp) (.inl rfl)
      dsimp only at hspec
      rw [bisectFind, if_neg (by simp [hempty])]
      dsimp only
      rw [any_getElem?_append hfront hrest]
      by_cases hlt : bisect p (front ++ rest) (front ++ rest).length 0 (front ++ rest).length <
          front.length
      · rw [if_pos (decide_eq_true hlt)]
        omega
      · rw [if_neg (by simpa using hlt)]
        omega

end Bisect

def binarySearch (α : Type*) : PartitionPoint α where
  find := bisectFind
  find_append _ _ _ hfront hrest := bisectFind_append hfront hrest

end PartitionPoint

end PartnerChains
