import TrwMcp.Lib.Except

/-!
# Loops that may raise

A fold in `Except`: what its prefixes keep, and where it stopped.
-/

namespace TrwMcp.Lib.Except

universe u v w

variable {ε : Type u} {σ : Type v} {γ : Type w} {f : σ → γ → Except ε σ}

/-- The invariant of a loop that speaks of the elements it has passed. -/
theorem foldlM_history {I : List γ → σ → Prop} {xs : List γ}
    (hstep : ∀ ys s x s', I ys s → f s x = .ok s' → I (ys ++ [x]) s') {s s' : σ} {ys : List γ}
    (h0 : I ys s) (h : xs.foldlM f s = .ok s') : I (ys ++ xs) s' := by
  induction xs generalizing s ys with
  | nil =>
      simp only [List.foldlM_nil, pure_eq_ok] at h
      rw [List.append_nil]
      exact h ▸ h0
  | cons x xs ih =>
      simp only [List.foldlM_cons, bind_eq_ok] at h
      obtain ⟨t, ht, h⟩ := h
      have hnext := ih (hstep ys s x t h0 ht) h
      rwa [List.append_assoc] at hnext

/-- A loop that raised did so at one element, past a loop that did not. -/
theorem foldlM_error {xs : List γ} {s : σ} {e : ε} (h : xs.foldlM f s = .error e) :
    ∃ pre x post t, xs = pre ++ x :: post ∧ pre.foldlM f s = .ok t ∧ f t x = .error e := by
  induction xs generalizing s with
  | nil => cases h
  | cons x xs ih =>
      rw [List.foldlM_cons] at h
      cases hx : f s x with
      | error e' =>
          rw [hx] at h
          obtain rfl : e' = e := by simpa [bind, Except.bind] using h
          exact ⟨[], x, xs, s, rfl, rfl, hx⟩
      | ok t =>
          rw [hx] at h
          obtain ⟨pre, y, post, u, rfl, hpre, hy⟩ := ih h
          refine ⟨x :: pre, y, post, u, rfl, ?_, hy⟩
          rw [List.foldlM_cons, hx]
          exact hpre

end TrwMcp.Lib.Except
