import PartnerChains.Library.Transition

/-!
# Threads over a shared state

Each thread has a state of its own. In any order, the threads take turns, and in its turn a
thread makes one atomic step.
-/

namespace PartnerChains

/-- What the threads do in their turns. -/
structure Threads (ι τ σ : Type*) where
  start : ι → τ
  advance : ι → τ → σ → τ × σ

namespace Threads

/-- The states of the threads and the state that they share. -/
structure Configuration (ι τ σ : Type*) where
  threads : ι → τ
  shared : σ

variable {ι τ σ : Type*} [DecidableEq ι] (P : Threads ι τ σ)

def turn (c : Configuration ι τ σ) (i : ι) : Configuration ι τ σ :=
  let next := P.advance i (c.threads i) c.shared
  ⟨Function.update c.threads i next.1, next.2⟩

@[simp]
theorem turn_shared (c : Configuration ι τ σ) (i : ι) :
    (P.turn c i).shared = (P.advance i (c.threads i) c.shared).2 := rfl

@[simp]
theorem turn_threads_self (c : Configuration ι τ σ) (i : ι) :
    (P.turn c i).threads i = (P.advance i (c.threads i) c.shared).1 :=
  Function.update_self ..

theorem turn_threads_of_ne (c : Configuration ι τ σ) {i j : ι} (h : j ≠ i) :
    (P.turn c i).threads j = c.threads j :=
  Function.update_of_ne h ..

/-- All interleavings, observed by the threads whose turn it is. -/
def interleavings (initial : σ) : System (Configuration ι τ σ) ι where
  Init c := c = ⟨P.start, initial⟩
  Step c i next := next = P.turn c i

/-- Every schedule is possible. -/
theorem run_schedule (initial : σ) (schedule : List ι) :
    (P.interleavings initial).Run schedule (schedule.foldl P.turn ⟨P.start, initial⟩) := by
  induction schedule using List.reverseRecOn with
  | nil => exact .start rfl
  | append_singleton schedule i ih =>
      rw [List.foldl_append]
      exact .step ih rfl

/-- An assertion on the shared state and one for each thread hold in every interleaving when
a turn keeps the first, its own one, and those of all other threads. -/
theorem invariant_of_turns {P : Threads ι τ σ} {initial : σ} {I : σ → Prop}
    {A : ι → τ → σ → Prop} {Allowed : Configuration ι τ σ → ι → Prop} (hinit : I initial)
    (hstart : ∀ i, A i (P.start i) initial)
    (hturn : ∀ c i, Allowed c i → I c.shared → (∀ j, A j (c.threads j) c.shared) →
      I (P.turn c i).shared ∧ A i ((P.turn c i).threads i) (P.turn c i).shared ∧
        ∀ j ≠ i, A j (c.threads j) (P.turn c i).shared)
    {schedule : List ι} {c : Configuration ι τ σ}
    (run : ((P.interleavings initial).restrict Allowed).Run schedule c) :
    I c.shared ∧ ∀ j, A j (c.threads j) c.shared := by
  refine run.invariant (P := fun _ c => I c.shared ∧ ∀ j, A j (c.threads j) c.shared) ?_ ?_
  · rintro c rfl
    exact ⟨hinit, hstart⟩
  · rintro _ c i _ ⟨hI, hA⟩ ⟨hallowed, rfl⟩
    obtain ⟨hshared, hown, hothers⟩ := hturn c i hallowed hI hA
    refine ⟨hshared, fun j => ?_⟩
    by_cases hj : j = i
    · exact hj ▸ hown
    · rw [P.turn_threads_of_ne c hj]
      exact hothers j hj

end Threads

end PartnerChains
