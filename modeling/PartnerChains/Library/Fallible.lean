import Mathlib

/-! # Computations that may fail -/

namespace PartnerChains.Fallible

universe u

variable {ε α β : Type*}

section Bind

variable {α β : Type u}

@[simp]
theorem ok_bind (a : α) (f : α → Except ε β) : (Except.ok a >>= f) = f a := rfl

@[simp]
theorem error_bind (e : ε) (f : α → Except ε β) :
    (Except.error e >>= f) = Except.error e := rfl

@[simp]
theorem pure_eq_ok (a : α) : (pure a : Except ε α) = .ok a := rfl

theorem bind_eq_ok_iff {x : Except ε α} {f : α → Except ε β} {b : β} :
    (x >>= f) = .ok b ↔ ∃ a, x = .ok a ∧ f a = .ok b := by
  cases x <;> simp

end Bind

theorem toOption_eq_some_iff {x : Except ε α} {a : α} : x.toOption = some a ↔ x = .ok a := by
  cases x <;> simp [Except.toOption]

variable {xs : List α} {ys : List β}

/-- A list is mapped without failure exactly when every element is. -/
theorem mapM_eq_ok_iff {f : α → Except ε β} :
    xs.mapM f = .ok ys ↔ List.Forall₂ (fun x y => f x = .ok y) xs ys := by
  induction xs generalizing ys with
  | nil => simp [eq_comm]
  | cons x xs ih =>
      simp only [List.mapM_cons, bind_eq_ok_iff, ih, pure_eq_ok, Except.ok.injEq]
      constructor
      · rintro ⟨y, hy, rest, hrest, rfl⟩
        exact .cons hy hrest
      · intro h
        cases h with
        | cons hy hrest => exact ⟨_, hy, _, hrest, rfl⟩

theorem exists_of_mem_mapM {f : α → Except ε β} (h : xs.mapM f = .ok ys) {y : β} (hy : y ∈ ys) :
    ∃ x ∈ xs, f x = .ok y := by
  rw [mapM_eq_ok_iff] at h
  induction h with
  | nil => simp at hy
  | cons hx _ ih =>
      rcases List.mem_cons.mp hy with rfl | hrest
      · exact ⟨_, List.mem_cons_self, hx⟩
      · obtain ⟨x, hmem, hfx⟩ := ih hrest
        exact ⟨x, List.mem_cons_of_mem _ hmem, hfx⟩

theorem exists_ok_of_mem {f : α → Except ε β} (h : xs.mapM f = .ok ys) {x : α} (hx : x ∈ xs) :
    ∃ y, f x = .ok y := by
  rw [mapM_eq_ok_iff] at h
  induction h with
  | nil => simp at hx
  | cons hy _ ih =>
      rcases List.mem_cons.mp hx with rfl | hrest
      · exact ⟨_, hy⟩
      · exact ih hrest

theorem exists_mapM_eq_ok {f : α → Except ε β} {P : α → β → Prop}
    (h : ∀ x ∈ xs, ∃ y, f x = .ok y ∧ P x y) :
    ∃ ys, xs.mapM f = .ok ys ∧ List.Forall₂ P xs ys := by
  simp only [mapM_eq_ok_iff]
  induction xs with
  | nil => exact ⟨[], .nil, .nil⟩
  | cons x xs ih =>
      obtain ⟨y, hy, hP⟩ := h x List.mem_cons_self
      obtain ⟨ys, hys, hrest⟩ := ih fun x hx => h x (List.mem_cons_of_mem _ hx)
      exact ⟨y :: ys, .cons hy hys, .cons hP hrest⟩

/-- A pass succeeds exactly when each of its steps does. -/
theorem exists_mapM_iff {f : α → Except ε β} :
    (∃ ys, xs.mapM f = .ok ys) ↔ ∀ x ∈ xs, ∃ y, f x = .ok y := by
  constructor
  · rintro ⟨ys, hys⟩ x hx
    exact exists_ok_of_mem hys hx
  · intro h
    obtain ⟨ys, hys, -⟩ := exists_mapM_eq_ok (P := fun _ _ => True)
      fun x hx => (h x hx).imp fun _ hy => ⟨hy, trivial⟩
    exact ⟨ys, hys⟩

theorem exists_of_mapM_eq_error {f : α → Except ε β} {error : ε} (h : xs.mapM f = .error error) :
    ∃ x ∈ xs, f x = .error error := by
  induction xs with
  | nil => cases h
  | cons x xs ih =>
      rw [List.mapM_cons] at h
      cases hx : f x with
      | error e =>
          rw [hx] at h
          cases h
          exact ⟨x, List.mem_cons_self, hx⟩
      | ok y =>
          cases hxs : xs.mapM f with
          | error e =>
              rw [hx, hxs] at h
              obtain ⟨x', hmem, hx'⟩ := ih (hxs.trans h)
              exact ⟨x', List.mem_cons_of_mem _ hmem, hx'⟩
          | ok ys =>
              rw [hx, hxs] at h
              cases h

/-- A feature that each step keeps is kept by the whole list. -/
theorem map_eq_of_mapM {γ : Type*} {f : α → Except ε β} (h : xs.mapM f = .ok ys) {g : β → γ}
    {g' : α → γ} (hstep : ∀ x y, f x = .ok y → g y = g' x) : ys.map g = xs.map g' := by
  rw [mapM_eq_ok_iff] at h
  induction h with
  | nil => rfl
  | cons hx _ ih => simp [hstep _ _ hx, ih]

/-- Elements are selected before or after the pass when both sides agree on the selection. -/
theorem mapM_filter_eq_ok {f : α → Except ε β} (h : xs.mapM f = .ok ys) {p : β → Bool}
    {q : α → Bool} (hstep : ∀ x y, f x = .ok y → p y = q x) :
    (xs.filter q).mapM f = .ok (ys.filter p) := by
  rw [mapM_eq_ok_iff] at h ⊢
  induction h with
  | nil => exact .nil
  | cons hx _ ih =>
      rw [List.filter_cons, List.filter_cons, hstep _ _ hx]
      split_ifs
      · exact .cons hx ih
      · exact ih

theorem mapM_take_eq_ok {f : α → Except ε β} (h : xs.mapM f = .ok ys) (n : ℕ) :
    (xs.take n).mapM f = .ok (ys.take n) := by
  rw [mapM_eq_ok_iff] at h ⊢
  exact List.forall₂_take n h

/-- Two passes over a list succeed when both steps do at every element. -/
theorem exists_mapM_mapM_eq_ok_iff {ε' γ : Type*} {f : α → Except ε β} {g : β → Except ε' γ}
    {zs : List γ} :
    (∃ ys, xs.mapM f = .ok ys ∧ ys.mapM g = .ok zs) ↔
      List.Forall₂ (fun x z => ∃ y, f x = .ok y ∧ g y = .ok z) xs zs := by
  simp only [mapM_eq_ok_iff]
  constructor
  · rintro ⟨ys, hys, hzs⟩
    induction hys generalizing zs with
    | nil =>
        cases hzs
        exact .nil
    | cons hy _ ih =>
        cases hzs with
        | cons hz hrest => exact .cons ⟨_, hy, hz⟩ (ih hrest)
  · intro h
    induction h with
    | nil => exact ⟨[], .nil, .nil⟩
    | cons hstep _ ih =>
        obtain ⟨y, hy, hz⟩ := hstep
        obtain ⟨ys, hys, hzs⟩ := ih
        exact ⟨y :: ys, .cons hy hys, .cons hz hzs⟩

/-- What is written element by element is read back element by element. -/
theorem mapM_map_eq_some {γ : Type*} {write : α → β} {read : β → Option γ} {result : α → γ}
    (h : ∀ x ∈ xs, read (write x) = some (result x)) :
    (xs.map write).mapM read = some (xs.map result) := by
  induction xs with
  | nil => rfl
  | cons x xs ih =>
      simp [h x List.mem_cons_self, ih fun y hy => h y (List.mem_cons_of_mem _ hy)]

theorem mapM_eq_ok_map {f : α → Except ε β} {result : α → β} (h : ∀ x ∈ xs, f x = .ok (result x)) :
    xs.mapM f = .ok (xs.map result) := by
  induction xs with
  | nil => rfl
  | cons x xs ih =>
      simp [h x List.mem_cons_self, ih fun y hy => h y (List.mem_cons_of_mem _ hy)]

/-- Elements are kept or left out without failure exactly when each step succeeds. -/
theorem filterMapM_eq_ok_iff {α β : Type} {f : α → Except ε (Option β)} {xs : List α}
    {ys : List β} : xs.filterMapM f = .ok ys ↔
      (∀ x ∈ xs, ∃ result, f x = .ok result) ∧ ys = xs.filterMap fun x => (f x).toOption.join := by
  induction xs generalizing ys with
  | nil => simp [eq_comm]
  | cons x xs ih =>
      rw [List.filterMapM_cons, List.forall_mem_cons, bind_eq_ok_iff]
      cases hx : f x with
      | error e => simp
      | ok result =>
          cases result with
          | none => simp [ih, hx, Except.toOption]
          | some y =>
              simp only [Except.ok.injEq, exists_eq_left', bind_eq_ok_iff, ih, pure_eq_ok,
                List.filterMap_cons, hx, Except.toOption, Option.join_some, exists_eq_left',
                exists_eq', true_and]
              constructor
              · rintro ⟨_, ⟨hall, rfl⟩, rfl⟩
                exact ⟨hall, rfl⟩
              · rintro ⟨hall, rfl⟩
                exact ⟨_, ⟨hall, rfl⟩, rfl⟩

/-- What is kept stands in the order of the list. -/
theorem filterMapM_sublist {α β : Type} {f : α → Except ε (Option β)} {p : β → α} {xs : List α}
    {ys : List β} (h : xs.filterMapM f = .ok ys) (hkeep : ∀ x y, f x = .ok (some y) → p y = x) :
    (ys.map p).Sublist xs := by
  obtain ⟨hall, rfl⟩ := filterMapM_eq_ok_iff.mp h
  clear h
  induction xs with
  | nil => exact .slnil
  | cons x xs ih =>
      obtain ⟨⟨result, hresult⟩, hrest⟩ := List.forall_mem_cons.mp hall
      rw [List.filterMap_cons, hresult]
      cases result with
      | none => exact (ih hrest).cons x
      | some y =>
          obtain rfl := hkeep x y hresult
          exact (ih hrest).cons_cons (p y)

/-- A search that succeeds finds what the results of its steps tell. -/
theorem findSomeM?_eq_ok {α β : Type} {f : α → Except ε (Option β)} {g : α → Option β}
    {xs : List α} {result : Option β} (hf : ∀ x y, f x = .ok y → y = g x)
    (h : xs.findSomeM? f = .ok result) : result = xs.findSome? g := by
  induction xs with
  | nil => simpa [List.findSomeM?, eq_comm] using h
  | cons x xs ih =>
      rw [List.findSomeM?] at h
      obtain ⟨found, hx, h⟩ := bind_eq_ok_iff.mp h
      rw [List.findSome?_cons, ← hf x found hx]
      cases found with
      | none => exact ih h
      | some y => simpa [eq_comm] using h

section Skip

variable {α β : Type} {f : β → α → Except ε β} {before after : List α} {bad : α}

/-- An element that changes nothing can stand anywhere in the list. -/
theorem foldlM_skip (h : ∀ b, f b bad = .ok b) (b : β) :
    (before ++ bad :: after).foldlM f b = (before ++ after).foldlM f b := by
  simp [List.foldlM_append, h]

/-- An element that always fails makes the whole pass fail, unless an earlier one does. -/
theorem foldlM_fail {error : ε} (h : ∀ b, f b bad = .error error) {b b' : β}
    (hrest : (before ++ after).foldlM f b = .ok b') :
    (before ++ bad :: after).foldlM f b = .error error := by
  rw [List.foldlM_append] at hrest ⊢
  obtain ⟨middle, hmiddle, -⟩ := bind_eq_ok_iff.mp hrest
  simp [hmiddle, h]

end Skip

@[simp]
theorem mapError_ok {ε' : Type*} (a : α) (f : ε → ε') :
    (Except.ok a : Except ε α).mapError f = .ok a := rfl

theorem mapError_eq_ok_iff {ε' : Type*} {x : Except ε α} {f : ε → ε'} {a : α} :
    x.mapError f = .ok a ↔ x = .ok a := by
  cases x <;> simp [Except.mapError]

/-! ## Computations that fail, have no result, or return a value -/

section Returns

variable {α β : Type} {P : α → Prop} {Q : β → Prop} {a : α}

/-- The computation does not fail, and a value that it returns has the property. -/
def Returns (P : α → Prop) (x : OptionT (Except ε) α) : Prop :=
  ∃ result, x.run = .ok result ∧ ∀ a ∈ result, P a

theorem returns_pure (h : P a) : Returns P (pure a : OptionT (Except ε) α) :=
  ⟨some a, rfl, by simpa using h⟩

theorem Returns.bind {x : OptionT (Except ε) α} {f : α → OptionT (Except ε) β}
    (hx : Returns P x) (hf : ∀ a, P a → Returns Q (f a)) : Returns Q (x >>= f) := by
  obtain ⟨result, hresult, hP⟩ := hx
  cases result with
  | none => exact ⟨none, by simp [hresult, Option.elimM], by simp⟩
  | some a =>
      obtain ⟨result', hresult', hQ⟩ := hf a (hP a rfl)
      exact ⟨result', by simp [hresult, hresult', Option.elimM], hQ⟩

theorem Returns.of_run_eq_some {x : OptionT (Except ε) α} (hx : Returns P x)
    (h : x.run = .ok (some a)) : P a := by
  obtain ⟨result, hresult, hP⟩ := hx
  rw [h] at hresult
  obtain rfl := Except.ok.inj hresult
  exact hP a rfl

end Returns

end PartnerChains.Fallible
