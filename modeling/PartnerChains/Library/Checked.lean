import PartnerChains.Library.Fallible

/-! Machine arithmetic whose overflow stops the program. A computation that may
stop is a value of `Except Panic`; each operation succeeds exactly when its exact
result is representable. -/

namespace PartnerChains

/-- The reason for which a computation stopped. -/
structure Panic where
  message : String
  deriving DecidableEq, Repr

namespace Checked

/-- An exact natural number, provided that it fits in `bits` bits. -/
def narrow (bits : ℕ) (message : String) (n : ℕ) : Except Panic ℕ :=
  if n < 2 ^ bits then .ok n else .error ⟨message⟩

def add (bits a b : ℕ) : Except Panic ℕ :=
  narrow bits "attempt to add with overflow" (a + b)

def mul (bits a b : ℕ) : Except Panic ℕ :=
  narrow bits "attempt to multiply with overflow" (a * b)

def sub (a b : ℕ) : Except Panic ℕ :=
  if b ≤ a then .ok (a - b) else .error ⟨"attempt to subtract with overflow"⟩

def div (a b : ℕ) : Except Panic ℕ :=
  if b = 0 then .error ⟨"attempt to divide by zero"⟩ else .ok (a / b)

def rem (a b : ℕ) : Except Panic ℕ :=
  if b = 0 then .error ⟨"attempt to calculate the remainder with a divisor of zero"⟩
  else .ok (a % b)

/-- An addition of a build that checks for overflow, or of one in which sums wrap around. -/
def addWith (overflowChecks : Bool) (bits a b : ℕ) : Except Panic ℕ :=
  if overflowChecks then add bits a b else .ok ((a + b) % 2 ^ bits)

/-- A multiplication of a build that checks for overflow, or of one in which products wrap
around. -/
def mulWith (overflowChecks : Bool) (bits a b : ℕ) : Except Panic ℕ :=
  if overflowChecks then mul bits a b else .ok ((a * b) % 2 ^ bits)

/-- A subtraction of a build that checks for overflow, or of one in which differences wrap
around. -/
def subWith (overflowChecks : Bool) (bits a b : ℕ) : Except Panic ℕ :=
  if overflowChecks then sub a b else .ok ((a + (2 ^ bits - b)) % 2 ^ bits)

def sum (bits : ℕ) (xs : List ℕ) : Except Panic ℕ :=
  xs.foldlM (add bits) 0

/-! ## When each operation succeeds -/

theorem narrow_of_lt {bits n : ℕ} (message : String) (h : n < 2 ^ bits) :
    narrow bits message n = .ok n := if_pos h

theorem narrow_of_le {bits n : ℕ} (message : String) (h : 2 ^ bits ≤ n) :
    narrow bits message n = .error ⟨message⟩ := if_neg (not_lt_of_ge h)

variable {bits a b : ℕ}

theorem add_of_lt (h : a + b < 2 ^ bits) : add bits a b = .ok (a + b) :=
  narrow_of_lt _ h

theorem add_of_le (h : 2 ^ bits ≤ a + b) :
    add bits a b = .error ⟨"attempt to add with overflow"⟩ :=
  narrow_of_le _ h

theorem addWith_of_lt (overflowChecks : Bool) (h : a + b < 2 ^ bits) :
    addWith overflowChecks bits a b = .ok (a + b) := by
  cases overflowChecks with
  | true => exact add_of_lt h
  | false => exact congrArg Except.ok (Nat.mod_eq_of_lt h)

theorem mul_of_lt (h : a * b < 2 ^ bits) : mul bits a b = .ok (a * b) :=
  narrow_of_lt _ h

theorem mulWith_of_lt (overflowChecks : Bool) (h : a * b < 2 ^ bits) :
    mulWith overflowChecks bits a b = .ok (a * b) := by
  cases overflowChecks with
  | true => exact mul_of_lt h
  | false => exact congrArg Except.ok (Nat.mod_eq_of_lt h)

theorem sub_of_le {a b : ℕ} (h : b ≤ a) : sub a b = .ok (a - b) := if_pos h

theorem subWith_of_le (overflowChecks : Bool) (hle : b ≤ a) (hlt : a < 2 ^ bits) :
    subWith overflowChecks bits a b = .ok (a - b) := by
  cases overflowChecks with
  | true => exact sub_of_le hle
  | false =>
      have hsum : a + (2 ^ bits - b) = a - b + 2 ^ bits := by omega
      have hwrapped : (a + (2 ^ bits - b)) % 2 ^ bits = a - b := by
        rw [hsum, Nat.add_mod_right, Nat.mod_eq_of_lt (by omega)]
      exact congrArg Except.ok hwrapped

theorem div_of_pos {a b : ℕ} (h : 0 < b) : div a b = .ok (a / b) :=
  if_neg h.ne'

theorem rem_of_pos {a b : ℕ} (h : 0 < b) : rem a b = .ok (a % b) :=
  if_neg h.ne'

theorem narrow_eq_ok_iff {bits n m : ℕ} {message : String} :
    narrow bits message n = .ok m ↔ n < 2 ^ bits ∧ n = m := by
  rw [narrow]
  split <;> simp [*]

theorem addWith_eq_ok_iff {overflowChecks : Bool} {bits a b m : ℕ} :
    addWith overflowChecks bits a b = .ok m ↔
      (overflowChecks = true → a + b < 2 ^ bits) ∧ (a + b) % 2 ^ bits = m := by
  cases overflowChecks with
  | true =>
      refine narrow_eq_ok_iff.trans ⟨fun ⟨hlt, hm⟩ => ⟨fun _ => hlt, ?_⟩, fun ⟨hlt, hm⟩ => ?_⟩
      · rw [Nat.mod_eq_of_lt hlt, hm]
      · rw [Nat.mod_eq_of_lt (hlt rfl)] at hm
        exact ⟨hlt rfl, hm⟩
  | false => simp [addWith]

theorem mul_eq_ok_iff {bits a b m : ℕ} : mul bits a b = .ok m ↔ a * b < 2 ^ bits ∧ a * b = m :=
  narrow_eq_ok_iff

theorem sub_eq_ok_iff {a b m : ℕ} : sub a b = .ok m ↔ b ≤ a ∧ a - b = m := by
  rw [sub]
  split <;> simp [*]

theorem div_eq_ok_iff {a b m : ℕ} : div a b = .ok m ↔ b ≠ 0 ∧ a / b = m := by
  rw [div]
  split <;> simp [*]

theorem rem_eq_ok_iff {a b m : ℕ} : rem a b = .ok m ↔ b ≠ 0 ∧ a % b = m := by
  rw [rem]
  split <;> simp [*]

/-- Where a product wraps around, it only gets smaller. -/
theorem mulWith_le {overflowChecks : Bool} {bits a b m : ℕ}
    (h : mulWith overflowChecks bits a b = .ok m) : m ≤ a * b := by
  cases overflowChecks with
  | true => exact (mul_eq_ok_iff.mp h).2.ge
  | false =>
      rw [← Except.ok.inj h]
      exact Nat.mod_le _ _

/-! ## Sums -/

private theorem foldlM_add_of_lt {bits : ℕ} (xs : List ℕ) (start : ℕ)
    (h : start + xs.sum < 2 ^ bits) :
    xs.foldlM (add bits) start = .ok (start + xs.sum) := by
  induction xs generalizing start with
  | nil => simp [pure, Except.pure]
  | cons x xs ih =>
      rw [List.sum_cons] at h
      have hx : start + x < 2 ^ bits := by omega
      rw [List.foldlM_cons, add_of_lt hx]
      simpa [Nat.add_assoc] using ih (start + x) (by omega)

private theorem foldlM_add_of_le {bits : ℕ} (xs : List ℕ) (start : ℕ)
    (hs : start < 2 ^ bits) (h : 2 ^ bits ≤ start + xs.sum) :
    xs.foldlM (add bits) start = .error ⟨"attempt to add with overflow"⟩ := by
  induction xs generalizing start with
  | nil =>
      simp only [List.sum_nil, Nat.add_zero] at h
      omega
  | cons x xs ih =>
      rw [List.sum_cons] at h
      rw [List.foldlM_cons]
      by_cases hx : start + x < 2 ^ bits
      · rw [add_of_lt hx]
        simpa using ih (start + x) hx (by omega)
      · rw [add_of_le (Nat.le_of_not_lt hx)]
        rfl

variable {xs : List ℕ}

/-- A left-to-right sum succeeds as soon as the exact total fits, because partial
sums of natural numbers never exceed it. -/
theorem sum_of_lt (h : xs.sum < 2 ^ bits) :
    sum bits xs = .ok xs.sum := by
  simpa [sum] using foldlM_add_of_lt xs 0 (by simpa using h)

theorem sum_of_le (h : 2 ^ bits ≤ xs.sum) :
    sum bits xs = .error ⟨"attempt to add with overflow"⟩ :=
  foldlM_add_of_le xs 0 (Nat.two_pow_pos bits) (by simpa using h)

theorem sum_eq_ok_iff {m : ℕ} :
    sum bits xs = .ok m ↔ xs.sum < 2 ^ bits ∧ xs.sum = m := by
  by_cases h : xs.sum < 2 ^ bits
  · simp [sum_of_lt h, h]
  · simp [sum_of_le (Nat.le_of_not_lt h), h]

end Checked

end PartnerChains
