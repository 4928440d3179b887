import Mathlib

/-!
# Bisection with bounded numbers

A window of numbers is halved by comparisons until one of them is equal. The last number of the
window takes part, although the elements in question lie before it. Numbers are below a bound, and
a window whose ends add up to more is not bisected any further.
-/

namespace PartnerChains.Bisection

variable {ε : Type*} {bound : ℕ} {f g : ℕ → Except ε Ordering}
  {start stop left right : ℕ} {result other : Option ℕ}

/-- `Bisects bound f left right result`: the bisection of the window ends with `result`. -/
inductive Bisects (bound : ℕ) (f : ℕ → Except ε Ordering) : ℕ → ℕ → Option ℕ → Prop
  | empty {left right : ℕ} : right < left → Bisects bound f left right none
  | failed {left right : ℕ} {error : ε} : left ≤ right → left + right < bound →
      f ((left + right) / 2) = .error error → Bisects bound f left right none
  | found {left right : ℕ} : left ≤ right → left + right < bound →
      f ((left + right) / 2) = .ok .eq → Bisects bound f left right (some ((left + right) / 2))
  | less {left right : ℕ} {result : Option ℕ} : left ≤ right → left + right < bound →
      f ((left + right) / 2) = .ok .lt →
      Bisects bound f ((left + right) / 2 + 1) right result → Bisects bound f left right result
  | greater {left right : ℕ} {result : Option ℕ} : left ≤ right → left + right < bound →
      f ((left + right) / 2) = .ok .gt → 0 < (left + right) / 2 →
      Bisects bound f left ((left + right) / 2 - 1) result → Bisects bound f left right result

/-! ### What a comparison leads to -/

theorem Bisects.of_error (h : Bisects bound f left right result) (hle : left ≤ right) {error : ε}
    (hf : f ((left + right) / 2) = .error error) : result = none := by
  cases h with
  | empty hlt => omega
  | failed _ _ _ => rfl
  | found _ _ hf' => rw [hf] at hf'; cases hf'
  | less _ _ hf' _ => rw [hf] at hf'; cases hf'
  | greater _ _ hf' _ _ => rw [hf] at hf'; cases hf'

theorem Bisects.of_eq (h : Bisects bound f left right result) (hle : left ≤ right)
    (hf : f ((left + right) / 2) = .ok .eq) : result = some ((left + right) / 2) := by
  cases h with
  | empty hlt => omega
  | found _ _ _ => rfl
  | failed _ _ hf' => rw [hf] at hf'; cases hf'
  | less _ _ hf' _ => rw [hf] at hf'; cases hf'
  | greater _ _ hf' _ _ => rw [hf] at hf'; cases hf'

theorem Bisects.of_lt (h : Bisects bound f left right result) (hle : left ≤ right)
    (hf : f ((left + right) / 2) = .ok .lt) :
    Bisects bound f ((left + right) / 2 + 1) right result := by
  cases h with
  | empty hlt => omega
  | less _ _ _ hrest => exact hrest
  | failed _ _ hf' => rw [hf] at hf'; cases hf'
  | found _ _ hf' => rw [hf] at hf'; cases hf'
  | greater _ _ hf' _ _ => rw [hf] at hf'; cases hf'

theorem Bisects.of_gt (h : Bisects bound f left right result) (hle : left ≤ right)
    (hf : f ((left + right) / 2) = .ok .gt) :
    0 < (left + right) / 2 ∧ Bisects bound f left ((left + right) / 2 - 1) result := by
  cases h with
  | empty hlt => omega
  | greater _ _ _ hpos hrest => exact ⟨hpos, hrest⟩
  | failed _ _ hf' => rw [hf] at hf'; cases hf'
  | found _ _ hf' => rw [hf] at hf'; cases hf'
  | less _ _ hf' _ => rw [hf] at hf'; cases hf'

theorem Bisects.sum_lt (h : Bisects bound f left right result) (hle : left ≤ right) :
    left + right < bound := by
  cases h with
  | empty hlt => omega
  | _ => assumption

theorem Bisects.unique (h : Bisects bound f left right result)
    (h' : Bisects bound f left right other) : result = other := by
  induction h with
  | empty hlt =>
      cases h' with
      | empty _ => rfl
      | _ => omega
  | failed hle _ hf => exact (h'.of_error hle hf).symm
  | found hle _ hf => exact (h'.of_eq hle hf).symm
  | less hle _ hf _ ih => exact ih (h'.of_lt hle hf)
  | greater hle _ hf _ _ ih => exact ih (h'.of_gt hle hf).2

/-- What is found is found by every comparison that says the same where it succeeds. -/
theorem Bisects.mono {found : ℕ}
    (hfg : ∀ n ordering, left ≤ n → n ≤ right → f n = .ok ordering → g n = .ok ordering)
    (h : Bisects bound f left right (some found)) : Bisects bound g left right (some found) := by
  generalize hresult : some found = result at h
  induction h with
  | empty _ => cases hresult
  | failed _ _ _ => cases hresult
  | found hle hlt hf =>
      cases hresult
      exact .found hle hlt (hfg _ _ (by omega) (by omega) hf)
  | less hle hlt hf _ ih =>
      refine .less hle hlt (hfg _ _ (by omega) (by omega) hf) (ih (fun n _ hn => ?_) hresult)
      exact hfg n _ (by omega)
  | greater hle hlt hf hpos _ ih =>
      refine .greater hle hlt (hfg _ _ (by omega) (by omega) hf) hpos
        (ih (fun n _ hn hle' => ?_) hresult)
      exact hfg n _ hn (by omega)

/-! ## Ordered comparisons -/

/-- Along the range from `start` to before `stop` a comparison is less, then equal, then
greater. -/
structure Ordered (f : ℕ → Except ε Ordering) (start stop : ℕ) : Prop where
  succeeds : ∀ n, start ≤ n → n < stop → ∃ ordering, f n = .ok ordering
  less : ∀ m n, start ≤ m → m ≤ n → n < stop → f n = .ok .lt → f m = .ok .lt
  greater : ∀ m n, start ≤ m → m ≤ n → n < stop → f m = .ok .gt → f n = .ok .gt

/-- An equal element of the range, or none if there is none. -/
def Finds (f : ℕ → Except ε Ordering) (start stop : ℕ) : Option ℕ → Prop
  | some n => start ≤ n ∧ n < stop ∧ f n = .ok .eq
  | none => ∀ n, start ≤ n → n < stop → f n ≠ .ok .eq

/-! ## Windows within the range -/

theorem pos_of_greater (hzero : ¬ (start = 0 ∧ f 0 = .ok .gt)) {n : ℕ} (hn : start ≤ n)
    (hf : f n = .ok .gt) : 0 < n := by
  rcases Nat.eq_zero_or_pos n with rfl | hpos
  · exact absurd ⟨by omega, hf⟩ hzero
  · exact hpos

/-- Nothing is missed by a window that lies in the lower half of the numbers. -/
theorem exists_finds_within (hordered : Ordered f start stop)
    (hzero : ¬ (start = 0 ∧ f 0 = .ok .gt)) (hleft : start ≤ left) (hright : right < stop)
    (hbound : 2 * right < bound) (hless : ∀ n, start ≤ n → n < left → f n = .ok .lt)
    (hgreater : ∀ n, right < n → n < stop → f n = .ok .gt) :
    ∃ result, Bisects bound f left right result ∧ Finds f start stop result := by
  induction hsize : right + 1 - left using Nat.strong_induction_on generalizing left right with
  | h size ih =>
      by_cases hle : left ≤ right
      · have hsum : left + right < bound := by omega
        have hstart : start ≤ (left + right) / 2 := by omega
        have hstop : (left + right) / 2 < stop := by omega
        obtain ⟨ordering, hf⟩ := hordered.succeeds _ hstart hstop
        cases ordering with
        | eq => exact ⟨_, .found hle hsum hf, hstart, hstop, hf⟩
        | lt =>
            obtain ⟨result, hbisects, hfinds⟩ := ih (right + 1 - ((left + right) / 2 + 1))
              (by omega) (by omega) hright hbound
              (fun n hn hlt => hordered.less n _ hn (by omega) hstop hf) hgreater rfl
            exact ⟨result, .less hle hsum hf hbisects, hfinds⟩
        | gt =>
            have hpos := pos_of_greater hzero hstart hf
            obtain ⟨result, hbisects, hfinds⟩ := ih ((left + right) / 2 - 1 + 1 - left) (by omega)
              hleft (by omega) (by omega) hless
              (fun n hn hlt => hordered.greater _ n hstart (by omega) hlt hf) rfl
            exact ⟨result, .greater hle hsum hf hpos hbisects, hfinds⟩
      · refine ⟨none, .empty (by omega), fun n hn hlt heq => ?_⟩
        by_cases hbelow : n < left
        · rw [hless n hn hbelow] at heq
          cases heq
        · rw [hgreater n (by omega) hlt] at heq
          cases heq

/-! ## Windows that end with the range -/

/-- The lower end of the window after `steps` comparisons that were all less. -/
def lowEnd (left stop steps : ℕ) : ℕ := stop + 1 - (stop + 1 - left) / 2 ^ steps

theorem lowEnd_zero (h : left ≤ stop) : lowEnd left stop 0 = left := by
  simp only [lowEnd, pow_zero, Nat.div_one]
  omega

theorem lowEnd_succ (h : left ≤ stop) (steps : ℕ) :
    lowEnd left stop (steps + 1) = lowEnd ((left + stop) / 2 + 1) stop steps := by
  have hhalf : stop + 1 - ((left + stop) / 2 + 1) = (stop + 1 - left) / 2 := by omega
  rw [lowEnd, lowEnd, hhalf, Nat.div_div_eq_div_mul, pow_succ']

theorem le_lowEnd (left stop steps : ℕ) (h : left ≤ stop + 1) : left ≤ lowEnd left stop steps := by
  have hdiv := Nat.div_le_self (stop + 1 - left) (2 ^ steps)
  rw [lowEnd]
  omega

/-- The ends of all windows that are bisected while every comparison is less add up to a number
below the bound. -/
def SumsFit (bound : ℕ) (f : ℕ → Except ε Ordering) (left stop : ℕ) : Prop :=
  ∀ steps, (∀ n, left ≤ n → n < lowEnd left stop steps → f n = .ok .lt) →
    lowEnd left stop steps ≤ stop → lowEnd left stop steps + stop < bound

theorem SumsFit.of_double_lt (h : 2 * stop < bound) : SumsFit bound f left stop := by
  intro steps _ hle
  omega

theorem SumsFit.less (h : SumsFit bound f left stop) (hle : left ≤ stop)
    (hless : ∀ n, left ≤ n → n ≤ (left + stop) / 2 → f n = .ok .lt) :
    SumsFit bound f ((left + stop) / 2 + 1) stop := by
  intro steps hbelow hstop
  rw [← lowEnd_succ hle] at hbelow hstop ⊢
  refine h (steps + 1) (fun n hn hlt => ?_) hstop
  by_cases hmid : n ≤ (left + stop) / 2
  · exact hless n hn hmid
  · exact hbelow n (by omega) hlt

theorem finds_none_of_less (hless : ∀ n, start ≤ n → n < stop → f n = .ok .lt) :
    Finds f start stop none := by
  intro n hn hlt heq
  rw [hless n hn hlt] at heq
  cases heq

/-- The window that is the end of the range alone, when all of the range is less. -/
theorem bisects_end (hzero : ¬ (start = 0 ∧ f 0 = .ok .gt))
    (hlast : ¬ ((∀ n, start ≤ n → n < stop → f n = .ok .lt) ∧ f stop = .ok .eq))
    (hstart : start ≤ stop) (hsum : stop + stop < bound)
    (hless : ∀ n, start ≤ n → n < stop → f n = .ok .lt) : Bisects bound f stop stop none := by
  have hmid : (stop + stop) / 2 = stop := by omega
  cases hf : f stop with
  | error error => exact .failed le_rfl hsum (hmid.symm ▸ hf)
  | ok ordering =>
      cases ordering with
      | eq => exact absurd ⟨hless, hf⟩ hlast
      | lt => exact .less le_rfl hsum (hmid.symm ▸ hf) (.empty (by omega))
      | gt =>
          have hpos := pos_of_greater hzero hstart hf
          exact .greater le_rfl hsum (hmid.symm ▸ hf) (by omega) (.empty (by omega))

theorem exists_finds (hordered : Ordered f start stop) (hzero : ¬ (start = 0 ∧ f 0 = .ok .gt))
    (hlast : ¬ ((∀ n, start ≤ n → n < stop → f n = .ok .lt) ∧ f stop = .ok .eq))
    (hleft : start ≤ left) (hfit : SumsFit bound f left stop)
    (hless : ∀ n, start ≤ n → n < left → n < stop → f n = .ok .lt) :
    ∃ result, Bisects bound f left stop result ∧ Finds f start stop result := by
  induction hsize : stop + 1 - left using Nat.strong_induction_on generalizing left with
  | h size ih =>
      by_cases hle : left ≤ stop
      · have hsum : left + stop < bound := by
          have hfirst := hfit 0
          rw [lowEnd_zero hle] at hfirst
          exact hfirst (fun n hn hlt => absurd hlt (by omega)) hle
        by_cases hstop : (left + stop) / 2 < stop
        · have hstart : start ≤ (left + stop) / 2 := by omega
          obtain ⟨ordering, hf⟩ := hordered.succeeds _ hstart hstop
          cases ordering with
          | eq => exact ⟨_, .found hle hsum hf, hstart, hstop, hf⟩
          | lt =>
              have hbelow : ∀ n, start ≤ n → n ≤ (left + stop) / 2 → f n = .ok .lt :=
                fun n hn hmid => hordered.less n _ hn hmid hstop hf
              obtain ⟨result, hbisects, hfinds⟩ := ih _ (by omega) (by omega)
                (hfit.less hle fun n hn hmid => hbelow n (by omega) hmid)
                (fun n hn hlt _ => hbelow n hn (by omega)) rfl
              exact ⟨result, .less hle hsum hf hbisects, hfinds⟩
          | gt =>
              have hpos := pos_of_greater hzero hstart hf
              obtain ⟨result, hbisects, hfinds⟩ := exists_finds_within hordered hzero hleft
                (by omega : (left + stop) / 2 - 1 < stop) (by omega : _ < bound)
                (fun n hn hlt => hless n hn hlt (by omega))
                (fun n hn hlt => hordered.greater _ n hstart (by omega) hlt hf)
              exact ⟨result, .greater hle hsum hf hpos hbisects, hfinds⟩
        · obtain rfl : left = stop := by omega
          exact ⟨none, bisects_end hzero hlast hleft hsum (fun n hn hlt => hless n hn hlt hlt),
            finds_none_of_less fun n hn hlt => hless n hn hlt hlt⟩
      · refine ⟨none, .empty (by omega), finds_none_of_less fun n hn hlt => ?_⟩
        exact hless n hn (by omega) hlt

/-! ## What a finished bisection needs -/

theorem Bisects.sumsFit (h : Bisects bound f left stop result) : SumsFit bound f left stop := by
  intro steps
  induction steps generalizing left with
  | zero =>
      intro _ hstop
      have hle : left ≤ stop := (le_lowEnd left stop 0 (by
        simp only [lowEnd, pow_zero, Nat.div_one] at hstop
        omega)).trans hstop
      rw [lowEnd_zero hle]
      exact h.sum_lt hle
  | succ steps ih =>
      intro hbelow hstop
      by_cases hle : left ≤ stop
      · have hnext := le_lowEnd ((left + stop) / 2 + 1) stop steps (by omega)
        rw [lowEnd_succ hle] at hbelow hstop ⊢
        have hmid := hbelow ((left + stop) / 2) (by omega) (by omega)
        exact ih (h.of_lt hle hmid) (fun n hn hlt => hbelow n (by omega) hlt) hstop
      · rw [lowEnd, Nat.sub_eq_zero_of_le (by omega : stop + 1 ≤ left), Nat.zero_div] at hstop
        omega

/-- From zero on, there is no place below an element that is greater. -/
theorem not_bisects_of_greater (hordered : Ordered f 0 stop) (hgreater : f 0 = .ok .gt)
    (hright : right ≤ stop) : ¬ Bisects bound f 0 right result := by
  induction right using Nat.strong_induction_on with
  | h right ih =>
      intro h
      have hmid : f ((0 + right) / 2) = .ok .gt := by
        by_cases hlt : (0 + right) / 2 < stop
        · exact hordered.greater 0 _ le_rfl (Nat.zero_le _) hlt hgreater
        · have hzero : (0 + right) / 2 = 0 := by omega
          rw [hzero, hgreater]
      obtain ⟨hpos, hrest⟩ := h.of_gt (Nat.zero_le right) hmid
      exact ih _ (by omega) (by omega) hrest

/-- A range of elements that are all less is bisected up to its end. -/
theorem Bisects.eq_some_stop (hless : ∀ n, start ≤ n → n < stop → f n = .ok .lt)
    (hlast : f stop = .ok .eq) (hstart : start ≤ left) (hle : left ≤ stop)
    (h : Bisects bound f left stop result) : result = some stop := by
  induction hsize : stop - left using Nat.strong_induction_on generalizing left with
  | h size ih =>
      rcases Nat.lt_or_eq_of_le hle with hlt | rfl
      · have hmid := hless ((left + stop) / 2) (by omega) (by omega)
        exact ih _ (by omega) (by omega) (by omega) (h.of_lt hle hmid) rfl
      · have hmid : (left + left) / 2 = left := by omega
        have hresult := h.of_eq hle (hmid.symm ▸ hlast)
        rwa [hmid] at hresult

/-- A bisection of a range and its end finds what it should exactly when the sums fit, no element
below zero is looked for, and the end is not mistaken for an element. -/
theorem exists_finds_iff (hordered : Ordered f start stop) :
    (∃ result, Bisects bound f start stop result ∧ Finds f start stop result) ↔
      (start ≤ stop → SumsFit bound f start stop ∧ ¬ (start = 0 ∧ f 0 = .ok .gt) ∧
        ¬ ((∀ n, start ≤ n → n < stop → f n = .ok .lt) ∧ f stop = .ok .eq)) := by
  constructor
  · rintro ⟨result, hbisects, hfinds⟩ hle
    refine ⟨hbisects.sumsFit, ?_, ?_⟩
    · rintro ⟨rfl, hgreater⟩
      exact not_bisects_of_greater hordered hgreater le_rfl hbisects
    · rintro ⟨hless, hlast⟩
      obtain rfl := hbisects.eq_some_stop hless hlast le_rfl hle
      exact absurd hfinds.2.1 (lt_irrefl stop)
  · intro h
    by_cases hle : start ≤ stop
    · obtain ⟨hfit, hzero, hlast⟩ := h hle
      exact exists_finds hordered hzero hlast le_rfl hfit fun n hn hlt => absurd hlt (by omega)
    · exact ⟨none, .empty (by omega), fun n hn hlt => absurd hlt (by omega)⟩

/-- Without an element that is equal or greater, nothing is found. -/
theorem bisects_none (hright : 2 * right < bound)
    (h : ∀ n, left ≤ n → n ≤ right → f n = .ok .lt ∨ ∃ error, f n = .error error) :
    Bisects bound f left right none := by
  induction hsize : right + 1 - left using Nat.strong_induction_on generalizing left with
  | h size ih =>
      by_cases hle : left ≤ right
      · rcases h ((left + right) / 2) (by omega) (by omega) with hf | ⟨error, hf⟩
        · refine .less hle (by omega) hf (ih _ ?_ (fun n hn => h n (by omega)) rfl)
          omega
        · exact .failed hle (by omega) hf
      · exact .empty (by omega)

/-! ## The last equal element -/

/-- Of the equal elements before `limit`, only one that is followed by a greater element compares
equal. -/
def lastUpTo (f : ℕ → Except ε Ordering) (limit n : ℕ) : Except ε Ordering := do
  match ← f n with
  | .eq =>
      if n < limit then
        match ← f (n + 1) with
        | .gt => .ok .eq
        | _ => .ok .lt
      else .ok .eq
  | ordering => .ok ordering

section LastUpTo

variable {limit n : ℕ}

theorem lastUpTo_of_lt (h : f n = .ok .lt) : lastUpTo f limit n = .ok .lt := by
  rw [lastUpTo, h]
  rfl

theorem lastUpTo_of_gt (h : f n = .ok .gt) : lastUpTo f limit n = .ok .gt := by
  rw [lastUpTo, h]
  rfl

theorem lastUpTo_of_error {error : ε} (h : f n = .error error) :
    lastUpTo f limit n = .error error := by
  rw [lastUpTo, h]
  rfl

theorem lastUpTo_of_limit (h : f n = .ok .eq) (hlimit : limit ≤ n) :
    lastUpTo f limit n = .ok .eq := by
  rw [lastUpTo, h]
  exact if_neg (Nat.not_lt.mpr hlimit)

theorem lastUpTo_of_next {ordering : Ordering} (h : f n = .ok .eq) (hlimit : n < limit)
    (hnext : f (n + 1) = .ok ordering) :
    lastUpTo f limit n = .ok (if ordering = .gt then .eq else .lt) := by
  rw [lastUpTo, h]
  change (if n < limit then _ else _) = _
  rw [if_pos hlimit, hnext]
  cases ordering <;> rfl

theorem lastUpTo_of_next_error {error : ε} (h : f n = .ok .eq) (hlimit : n < limit)
    (hnext : f (n + 1) = .error error) : lastUpTo f limit n = .error error := by
  rw [lastUpTo, h]
  change (if n < limit then _ else _) = _
  rw [if_pos hlimit, hnext]
  rfl

/-- The elements from which the next one is read. -/
def NextSucceeds (f : ℕ → Except ε Ordering) (limit start stop : ℕ) : Prop :=
  ∀ n, start ≤ n → n < stop → f n = .ok .eq → n < limit → ∃ ordering, f (n + 1) = .ok ordering

/-- How an element compares, in terms of itself and the next one. -/
theorem lastUpTo_eq_ok_iff (hnext : NextSucceeds f limit start stop) (hn : start ≤ n)
    (hlt : n < stop) :
    (lastUpTo f limit n = .ok .lt ↔
        f n = .ok .lt ∨ f n = .ok .eq ∧ n < limit ∧ f (n + 1) ≠ .ok .gt) ∧
      (lastUpTo f limit n = .ok .eq ↔ f n = .ok .eq ∧ (n < limit → f (n + 1) = .ok .gt)) ∧
      (lastUpTo f limit n = .ok .gt ↔ f n = .ok .gt) := by
  cases hf : f n with
  | error error => simp [lastUpTo_of_error hf]
  | ok ordering =>
      cases ordering with
      | lt => simp [lastUpTo_of_lt hf]
      | gt => simp [lastUpTo_of_gt hf]
      | eq =>
          by_cases hlimit : n < limit
          · obtain ⟨next, hnext⟩ := hnext n hn hlt hf hlimit
            rw [lastUpTo_of_next hf hlimit hnext, hnext]
            cases next <;> simp [hlimit]
          · simp [lastUpTo_of_limit hf (Nat.le_of_not_lt hlimit), hlimit]

/-- Between two elements that are not greater there is no greater one. -/
theorem Ordered.ne_gt (hordered : Ordered f start stop) {m : ℕ} (hm : start ≤ m) (hmn : m ≤ n)
    (hn : n < stop) (h : f n ≠ .ok .gt) : f m ≠ .ok .gt :=
  fun hgreater => h (hordered.greater m n hm hmn hn hgreater)

theorem Ordered.lastUpTo (hordered : Ordered f start stop)
    (hnext : NextSucceeds f limit start stop) : Ordered (lastUpTo f limit) start stop := by
  refine ⟨fun n hn hlt => ?_, fun m n hm hmn hlt h => ?_, fun m n hm hmn hlt h => ?_⟩
  · obtain ⟨ordering, hf⟩ := hordered.succeeds n hn hlt
    cases ordering with
    | lt => exact ⟨.lt, lastUpTo_of_lt hf⟩
    | gt => exact ⟨.gt, lastUpTo_of_gt hf⟩
    | eq =>
        by_cases hlimit : n < limit
        · obtain ⟨next, hnext⟩ := hnext n hn hlt hf hlimit
          exact ⟨_, lastUpTo_of_next hf hlimit hnext⟩
        · exact ⟨.eq, lastUpTo_of_limit hf (Nat.le_of_not_lt hlimit)⟩
  · rw [(lastUpTo_eq_ok_iff hnext (hm.trans hmn) hlt).1] at h
    rw [(lastUpTo_eq_ok_iff hnext hm (hmn.trans_lt hlt)).1]
    rcases h with hless | ⟨hequal, hlimit, hafter⟩
    · exact .inl (hordered.less m n hm hmn hlt hless)
    · rcases Nat.lt_or_eq_of_le hmn with hlt' | rfl
      · have hnot : f n ≠ .ok .gt := by simp [hequal]
        obtain ⟨ordering, hf⟩ := hordered.succeeds m hm (hmn.trans_lt hlt)
        cases ordering with
        | lt => exact .inl hf
        | gt => exact absurd hf (hordered.ne_gt hm hmn hlt hnot)
        | eq => exact .inr ⟨hf, hlt'.trans hlimit, hordered.ne_gt (by omega) hlt' hlt hnot⟩
      · exact .inr ⟨hequal, hlimit, hafter⟩
  · rw [(lastUpTo_eq_ok_iff hnext hm (hmn.trans_lt hlt)).2.2] at h
    exact lastUpTo_of_gt (hordered.greater m n hm hmn hlt h)

/-- Before the limit, the element that compares equal is the last of the equal ones. -/
theorem Ordered.lastUpTo_eq_iff (hordered : Ordered f start stop) (hn : start ≤ n)
    (hstop : n + 1 < stop) (hlimit : n < limit) :
    Bisection.lastUpTo f limit n = .ok .eq ↔
      IsGreatest { m | start ≤ m ∧ m < stop ∧ f m = .ok .eq } n := by
  obtain ⟨next, hafter⟩ := hordered.succeeds (n + 1) (by omega) hstop
  have hnext : NextSucceeds f limit n (n + 1) := by
    intro m hm hlt _ _
    obtain rfl : m = n := by omega
    exact ⟨next, hafter⟩
  rw [(lastUpTo_eq_ok_iff hnext le_rfl (Nat.lt_succ_self n)).2.1]
  constructor
  · rintro ⟨hequal, hgreater⟩
    refine ⟨⟨hn, by omega, hequal⟩, fun m ⟨_, hm, hequal'⟩ => ?_⟩
    by_contra hnot
    rw [hordered.greater (n + 1) m (by omega) (by omega) hm (hgreater hlimit)] at hequal'
    cases hequal'
  · rintro ⟨⟨_, _, hequal⟩, hupper⟩
    refine ⟨hequal, fun _ => ?_⟩
    cases next with
    | gt => exact hafter
    | eq =>
        have hle := hupper ⟨by omega, hstop, hafter⟩
        omega
    | lt =>
        rw [hordered.less n (n + 1) hn (by omega) hstop hafter] at hequal
        cases hequal

/-- Numbers before `low` are less, and numbers after `high` greater. -/
def position (low high n : ℕ) : Except ε Ordering :=
  .ok (if n < low then .lt else if n ≤ high then .eq else .gt)

/-- The equal elements are next to each other. -/
theorem Ordered.eq_between (hordered : Ordered f start stop) {low high : ℕ} (hstart : start ≤ low)
    (hlow : low ≤ n) (hhigh : n ≤ high) (hstop : high < stop) (hequal : f low = .ok .eq)
    (hequal' : f high = .ok .eq) : f n = .ok .eq := by
  obtain ⟨ordering, hf⟩ := hordered.succeeds n (hstart.trans hlow) (hhigh.trans_lt hstop)
  cases ordering with
  | eq => exact hf
  | lt =>
      rw [hordered.less low n hstart hlow (hhigh.trans_lt hstop) hf] at hequal
      cases hequal
  | gt =>
      rw [hordered.greater n high (hstart.trans hlow) hhigh hstop hf] at hequal'
      cases hequal'

/-- With equal elements on both sides of the limit, those from the limit on compare equal. -/
theorem Ordered.lastUpTo_eq_position (hordered : Ordered f start stop)
    (hnext : NextSucceeds f limit start stop) {last : ℕ}
    (hlast : IsGreatest { m | start ≤ m ∧ m < stop ∧ f m = .ok .eq } last)
    (hlimit : start ≤ limit ∧ limit < stop ∧ f limit = .ok .eq) (hn : start ≤ n)
    (hstop : n < stop) : Bisection.lastUpTo f limit n = position limit last n := by
  obtain ⟨hstart, hbound, hequal⟩ := hlimit
  obtain ⟨hstart', hbound', hequal'⟩ := hlast.1
  obtain ⟨ordering, hf⟩ := hordered.succeeds n hn hstop
  by_cases hlt : n < limit
  · have hnot : f limit ≠ .ok .gt := by simp [hequal]
    rw [position, if_pos hlt, (lastUpTo_eq_ok_iff hnext hn hstop).1]
    cases ordering with
    | lt => exact .inl hf
    | gt => exact absurd hf (hordered.ne_gt hn hlt.le hbound hnot)
    | eq => exact .inr ⟨hf, hlt, hordered.ne_gt (by omega) hlt hbound hnot⟩
  · have hle := Nat.le_of_not_lt hlt
    rw [position, if_neg hlt]
    by_cases hupper : n ≤ last
    · rw [if_pos hupper]
      exact lastUpTo_of_limit (hordered.eq_between hstart hle hupper hbound' hequal hequal') hle
    · rw [if_neg hupper]
      cases ordering with
      | gt => exact lastUpTo_of_gt hf
      | eq => exact absurd (hlast.2 ⟨hn, hstop, hf⟩) hupper
      | lt =>
          rw [hordered.less last n hstart' (by omega) hstop hf] at hequal'
          cases hequal'

end LastUpTo

end PartnerChains.Bisection
