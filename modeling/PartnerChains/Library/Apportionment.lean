import Mathlib

/-!
# Proportional shares of a number of seats

`n` seats are shared among weights `ws`. Each weight has a right to the whole part of its
share; what the rounding leaves is exactly what the remainders add up to.
-/

namespace PartnerChains.Apportionment

theorem sum_div_add_sum_mod (n total : ℕ) (ws : List ℕ) :
    total * (ws.map fun w => w * n / total).sum + (ws.map fun w => w * n % total).sum =
      ws.sum * n := by
  induction ws with
  | nil => simp
  | cons w ws ih =>
      have hw := Nat.div_add_mod (w * n) total
      simp only [List.map_cons, List.sum_cons, Nat.mul_add, Nat.add_mul]
      omega

theorem sum_div_le {n : ℕ} {ws : List ℕ} (hpos : 0 < ws.sum) :
    (ws.map fun w => w * n / ws.sum).sum ≤ n := by
  have h := sum_div_add_sum_mod n ws.sum ws
  refine Nat.le_of_mul_le_mul_left ?_ hpos
  omega

/-- The remainders add up to the seats that are left, each worth the total weight. -/
theorem sum_mod_eq {n : ℕ} {ws : List ℕ} (hpos : 0 < ws.sum) :
    (ws.map fun w => w * n % ws.sum).sum =
      ws.sum * (n - (ws.map fun w => w * n / ws.sum).sum) := by
  have h := sum_div_add_sum_mod n ws.sum ws
  have hle : (ws.map fun w => w * n / ws.sum).sum ≤ n := sum_div_le hpos
  rw [Nat.mul_sub]
  omega

/-- A share never exceeds the number of seats. -/
theorem div_le_of_mem {n w : ℕ} {ws : List ℕ} (hw : w ∈ ws) : w * n / ws.sum ≤ n := by
  rcases Nat.eq_zero_or_pos ws.sum with hzero | hpos
  · simp [hzero]
  · refine Nat.div_le_of_le_mul ?_
    exact Nat.mul_le_mul_right n (List.le_sum_of_mem hw)

end PartnerChains.Apportionment
