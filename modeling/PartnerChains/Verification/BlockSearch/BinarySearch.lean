import PartnerChains.Library.Bisection
import PartnerChains.Algorithm.BlockSearch

/-!
# The binary search

It bisects its range together with the end of the range. That is right as long as the sums of both
ends fit, the search does not go below zero, and the end does not compare equal.
-/

namespace PartnerChains.BlockSearch

open Bisection Fallible

variable {ε : Type} {bits fuel left right start stop : ℕ} {f : ℕ → Except ε Ordering}
  {result : Option ℕ}

/-! ## The loop and the bisection -/

/-- A search that ends without a panic is a bisection. -/
theorem bisects_of_binarySearchBy
    (h : binarySearchBy true bits f fuel left right = .ok result) :
    Bisects (2 ^ bits) f left right result := by
  induction fuel generalizing left right with
  | zero => cases h
  | succ fuel ih =>
      unfold binarySearchBy at h
      split_ifs at h with hle
      · obtain ⟨sum, hsum, h⟩ := bind_eq_ok_iff.mp h
        obtain ⟨hlt, rfl⟩ := Checked.narrow_eq_ok_iff.mp (mapError_eq_ok_iff.mp hsum)
        cases hf : f ((left + right) / 2) with
        | error error =>
            simp only [hf, Except.ok.injEq] at h
            exact h ▸ .failed hle hlt hf
        | ok ordering =>
            cases ordering with
            | eq =>
                simp only [hf, Except.ok.injEq] at h
                exact h ▸ .found hle hlt hf
            | lt =>
                simp only [hf] at h
                obtain ⟨next, hnext, h⟩ := bind_eq_ok_iff.mp h
                obtain ⟨-, rfl⟩ := Checked.narrow_eq_ok_iff.mp (mapError_eq_ok_iff.mp hnext)
                exact .less hle hlt hf (ih h)
            | gt =>
                simp only [hf] at h
                obtain ⟨next, hnext, h⟩ := bind_eq_ok_iff.mp h
                obtain ⟨hpos, rfl⟩ := Checked.sub_eq_ok_iff.mp (mapError_eq_ok_iff.mp hnext)
                exact .greater hle hlt hf hpos (ih h)
      · exact Except.ok.inj h ▸ .empty (Nat.lt_of_not_le hle)

/-- A bisection is the search of every build. -/
theorem exists_fuel_of_bisects (overflowChecks : Bool) (hbits : 0 < bits)
    (h : Bisects (2 ^ bits) f left right result) :
    ∃ fuel, binarySearchBy overflowChecks bits f fuel left right = .ok result := by
  have htwo : 2 ≤ 2 ^ bits := by
    have hpow := Nat.pow_le_pow_right (by decide : 0 < 2) hbits
    rwa [pow_one] at hpow
  induction h with
  | empty hlt =>
      exact ⟨1, by simp [binarySearchBy, Nat.not_le.mpr hlt]⟩
  | failed hle hlt hf =>
      exact ⟨1, by simp [binarySearchBy, hle, Checked.addWith_of_lt _ hlt, Except.mapError, hf]⟩
  | found hle hlt hf =>
      exact ⟨1, by simp [binarySearchBy, hle, Checked.addWith_of_lt _ hlt, Except.mapError, hf]⟩
  | @less left right result hle hlt hf _ ih =>
      obtain ⟨fuel, hrest⟩ := ih
      have hnext : (left + right) / 2 + 1 < 2 ^ bits := by omega
      refine ⟨fuel + 1, ?_⟩
      simpa [binarySearchBy, hle, Checked.addWith_of_lt _ hlt, Except.mapError, hf,
        Checked.addWith_of_lt _ hnext] using hrest
  | @greater left right result hle hlt hf hpos _ ih =>
      obtain ⟨fuel, hrest⟩ := ih
      have hmid : (left + right) / 2 < 2 ^ bits := by omega
      refine ⟨fuel + 1, ?_⟩
      simpa [binarySearchBy, hle, Checked.addWith_of_lt _ hlt, Except.mapError, hf,
        Checked.subWith_of_le _ hpos hmid] using hrest

/-! ## When the search is correct -/

/-- In every build the search ends, with an equal element of the range if there is one. -/
def SearchCorrect (bits : ℕ) (f : ℕ → Except ε Ordering) (start stop : ℕ) : Prop :=
  ∀ overflowChecks, ∃ fuel result,
    binarySearchBy overflowChecks bits f fuel start stop = .ok result ∧ Finds f start stop result

theorem searchCorrect_iff_bisects (hbits : 0 < bits) :
    SearchCorrect bits f start stop ↔
      ∃ result, Bisects (2 ^ bits) f start stop result ∧ Finds f start stop result := by
  constructor
  · intro h
    obtain ⟨fuel, result, hsearch, hfinds⟩ := h true
    exact ⟨result, bisects_of_binarySearchBy hsearch, hfinds⟩
  · rintro ⟨result, hbisects, hfinds⟩ overflowChecks
    obtain ⟨fuel, hsearch⟩ := exists_fuel_of_bisects overflowChecks hbits hbisects
    exact ⟨fuel, result, hsearch, hfinds⟩

/-- The search of an ordered range is correct exactly when the sums of the ends fit, the range does
not start with a zero that is greater, and its end is not equal where all of the range is less. -/
theorem searchCorrect_iff (hbits : 0 < bits) (hordered : Ordered f start stop) :
    SearchCorrect bits f start stop ↔
      (start ≤ stop → SumsFit (2 ^ bits) f start stop ∧ ¬ (start = 0 ∧ f 0 = .ok .gt) ∧
        ¬ ((∀ n, start ≤ n → n < stop → f n = .ok .lt) ∧ f stop = .ok .eq)) :=
  (searchCorrect_iff_bisects hbits).trans (exists_finds_iff hordered)

theorem ordered_const (ordering : Ordering) (start stop : ℕ) :
    Ordered (fun _ => (.ok ordering : Except Empty Ordering)) start stop :=
  ⟨fun _ _ _ => ⟨ordering, rfl⟩, fun _ _ _ _ _ h => h, fun _ _ _ _ _ h => h⟩

theorem searchCorrect_iff_three_to_six :
    SearchCorrect 8 (fun n => (.ok (compare n 4) : Except Empty Ordering)) 3 6 := by
  have hordered : Ordered (fun n => (.ok (compare n 4) : Except Empty Ordering)) 3 6 := by
    refine ⟨fun _ _ _ => ⟨_, rfl⟩, fun m n _ hmn _ hn => ?_, fun m n _ hmn _ hm => ?_⟩
    · simp only [Except.ok.injEq, compare_lt_iff_lt] at hn ⊢
      omega
    · simp only [Except.ok.injEq, compare_gt_iff_gt] at hm ⊢
      omega
  refine (searchCorrect_iff (by decide) hordered).mpr fun _ => ⟨.of_double_lt (by decide), ?_, ?_⟩
  · rintro ⟨h, -⟩
    cases h
  · rintro ⟨-, h⟩
    exact absurd h (by decide)

/-- The end of an empty range is found, the search for a number below zero stops the program, and
so does a range whose ends add up to more than a number can be. -/
theorem search_of_small_ranges_fails :
    binarySearchBy false 8 (fun _ => (.ok .eq : Except Empty Ordering)) 1 0 0 = .ok (some 0) ∧
      binarySearchBy true 8 (fun _ => (.ok .gt : Except Empty Ordering)) 1 0 1 =
        .error (.panic ⟨"attempt to subtract with overflow"⟩) ∧
      binarySearchBy true 8 (fun _ => (.ok .eq : Except Empty Ordering)) 1 200 201 =
        .error (.panic ⟨"attempt to add with overflow"⟩) ∧
      ¬ SearchCorrect 8 (fun _ => (.ok .eq : Except Empty Ordering)) 0 0 ∧
      ¬ SearchCorrect 8 (fun _ => (.ok .gt : Except Empty Ordering)) 0 1 ∧
      ¬ SearchCorrect 8 (fun _ => (.ok .eq : Except Empty Ordering)) 200 201 := by
  refine ⟨by decide, by decide, by decide, fun h => ?_, fun h => ?_, fun h => ?_⟩
  · obtain ⟨-, -, hlast⟩ := (exists_finds_iff (ordered_const .eq 0 0)).mp
      ((searchCorrect_iff_bisects (by decide)).mp h) le_rfl
    exact hlast ⟨fun n _ hlt => absurd hlt (Nat.not_lt_zero n), rfl⟩
  · obtain ⟨-, hzero, -⟩ := (exists_finds_iff (ordered_const .gt 0 1)).mp
      ((searchCorrect_iff_bisects (by decide)).mp h) (by decide)
    exact hzero ⟨rfl, rfl⟩
  · obtain ⟨hfit, -, -⟩ := (exists_finds_iff (ordered_const .eq 200 201)).mp
      ((searchCorrect_iff_bisects (by decide)).mp h) (by decide)
    have hsum := hfit 0 (fun n hn hlt => absurd hlt (Nat.not_lt.mpr hn)) (by decide)
    exact absurd hsum (by decide)

end PartnerChains.BlockSearch
