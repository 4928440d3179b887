import Mathlib

/-! # Labelled transition systems and their runs -/

namespace PartnerChains

/-- States `σ` changed by steps that are observed as events `ε`. -/
structure System (σ ε : Type*) where
  Init : σ → Prop
  Step : σ → ε → σ → Prop

namespace System

variable {σ ε : Type*} {M : System σ ε}

/-- `M.Run trace s`: a run from an initial state reached `s`, and its observer has seen
`trace`. -/
inductive Run (M : System σ ε) : List ε → σ → Prop
  | start {s : σ} : M.Init s → Run M [] s
  | step {trace : List ε} {s t : σ} {e : ε} :
      Run M trace s → M.Step s e t → Run M (trace ++ [e]) t

/-- A relation between traces and states that holds initially and is kept by every step
holds of every run. -/
theorem Run.invariant {P : List ε → σ → Prop} (init : ∀ s, M.Init s → P [] s)
    (step : ∀ trace s e t, P trace s → M.Step s e t → P (trace ++ [e]) t)
    {trace : List ε} {s : σ} (run : M.Run trace s) : P trace s := by
  induction run with
  | start h => exact init _ h
  | step _ h ih => exact step _ _ _ _ ih h

/-- The same system with the steps that meet a condition only. -/
def restrict (M : System σ ε) (Allowed : σ → ε → Prop) : System σ ε where
  Init := M.Init
  Step s e t := Allowed s e ∧ M.Step s e t

theorem Run.restrict {Allowed : σ → ε → Prop} (h : ∀ s e, Allowed s e) {trace : List ε} {s : σ}
    (run : M.Run trace s) : (M.restrict Allowed).Run trace s := by
  induction run with
  | start hinit => exact .start hinit
  | step _ hstep ih => exact .step ih ⟨h _ _, hstep⟩

theorem Run.of_restrict {Allowed : σ → ε → Prop} {trace : List ε} {s : σ}
    (run : (M.restrict Allowed).Run trace s) : M.Run trace s := by
  induction run with
  | start hinit => exact .start hinit
  | step _ hstep ih => exact .step ih hstep.2

/-- A state that is reached from another one by some steps. -/
def Reaches (M : System σ ε) : σ → σ → Prop :=
  Relation.ReflTransGen fun s t => ∃ e, M.Step s e t

theorem Reaches.invariant {P : σ → Prop} {s t : σ} (hreaches : M.Reaches s t)
    (step : ∀ s e t, P s → M.Step s e t → P t) (h : P s) : P t := by
  induction hreaches with
  | refl => exact h
  | tail _ hstep ih =>
      obtain ⟨e, he⟩ := hstep
      exact step _ e _ ih he

end System

end PartnerChains
