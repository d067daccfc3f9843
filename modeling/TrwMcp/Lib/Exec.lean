import TrwMcp.Lib.Run

/-!
# Runs of a function

Where a step is a function of the state and the input, the run over a list of inputs is its fold.
-/

namespace TrwMcp.Lib

universe u v

variable {σ : Type u} {ι : Type v} {f : σ → ι → σ} {step : σ → ι → σ → Prop}

theorem Run.of_foldl (s₀ : σ) {xs : List ι} (hstep : ∀ x ∈ xs, ∀ s, step s x (f s x)) :
    Run step s₀ xs (xs.foldl f s₀) := by
  induction xs using List.reverseRecOn with
  | nil => exact .nil
  | append_singleton xs x ih =>
      rw [List.foldl_append]
      refine (ih fun y hy => hstep y (List.mem_append_left _ hy)).snoc ?_
      exact hstep x (List.mem_append_right _ (List.mem_singleton.mpr rfl)) _

/-- The run of the function itself. -/
theorem Run.foldl (f : σ → ι → σ) (s₀ : σ) (xs : List ι) :
    Run (fun s x s' => s' = f s x) s₀ xs (xs.foldl f s₀) :=
  .of_foldl s₀ fun _ _ _ => rfl

end TrwMcp.Lib
