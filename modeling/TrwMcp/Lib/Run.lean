import Mathlib

/-!
# Runs of a labelled transition system

A system is a relation `step : σ → ι → σ → Prop`: from a state, under an input, to a state. A run
is the reflexive-transitive closure that also keeps the inputs taken, oldest first, so a property
of the *history* can be carried next to a property of the state.

* `Run.invariant` — a state predicate kept by every step holds in every state reached.
* `Run.history_invariant` — the same for a predicate on the history *and* the state, the rule for
  code that keeps only a summary of what happened.
* `Run.split` — every input of a run was taken from a state the run had reached.
-/

namespace TrwMcp.Lib

universe u v w

variable {σ : Type u} {ι : Type v} {τ : Type w}

/-- The runs from `s₀`: the inputs taken, oldest first, and the state they lead to. -/
inductive Run (step : σ → ι → σ → Prop) (s₀ : σ) : List ι → σ → Prop
  | nil : Run step s₀ [] s₀
  | snoc {xs : List ι} {s s' : σ} {x : ι} :
      Run step s₀ xs s → step s x s' → Run step s₀ (xs ++ [x]) s'

namespace Run

variable {step : σ → ι → σ → Prop} {s₀ s s' : σ} {xs ys : List ι} {x : ι}

theorem single (h : step s₀ x s) : Run step s₀ [x] s := by
  simpa using (Run.nil.snoc h : Run step s₀ ([] ++ [x]) s)

/-- Runs compose. -/
theorem append (h₁ : Run step s₀ xs s) (h₂ : Run step s ys s') : Run step s₀ (xs ++ ys) s' := by
  induction h₂ with
  | nil => simpa using h₁
  | snoc _ hs ih => simpa [List.append_assoc] using ih.snoc hs

/-- The invariant rule: what holds at the start and is kept by every step holds throughout. -/
theorem invariant {I : σ → Prop} (h0 : I s₀) (hstep : ∀ s x s', I s → step s x s' → I s')
    (h : Run step s₀ xs s) : I s := by
  induction h with
  | nil => exact h0
  | snoc _ hs ih => exact hstep _ _ _ ih hs

/-- The invariant rule for a predicate that also speaks of the history. -/
theorem history_invariant {I : List ι → σ → Prop} (h0 : I [] s₀)
    (hstep : ∀ xs s x s', Run step s₀ xs s → I xs s → step s x s' → I (xs ++ [x]) s')
    (h : Run step s₀ xs s) : I xs s := by
  induction h with
  | nil => exact h0
  | snoc hr hs ih => exact hstep _ _ _ _ hr ih hs

theorem eq_of_nil (h : Run step s₀ [] s) : s = s₀ := by
  generalize hxs : ([] : List ι) = xs at h
  cases h with
  | nil => rfl
  | snoc _ _ => simp at hxs

theorem of_snoc (h : Run step s₀ (xs ++ [x]) s') : ∃ s, Run step s₀ xs s ∧ step s x s' := by
  generalize hys : xs ++ [x] = ys at h
  cases h with
  | nil => simp at hys
  | snoc hr hs =>
      obtain ⟨rfl, hx⟩ := List.append_inj' hys rfl
      obtain rfl : x = _ := by simpa using hx
      exact ⟨_, hr, hs⟩

/-- A run over `xs ++ ys` passes through the state its prefix reaches. -/
theorem of_append (h : Run step s₀ (xs ++ ys) s') :
    ∃ s, Run step s₀ xs s ∧ Run step s ys s' := by
  induction ys using List.reverseRecOn generalizing s' with
  | nil => exact ⟨s', by simpa using h, Run.nil⟩
  | append_singleton ys y ih =>
      rw [← List.append_assoc] at h
      obtain ⟨t, ht, hs⟩ := of_snoc h
      obtain ⟨s, hs₁, hs₂⟩ := ih ht
      exact ⟨s, hs₁, hs₂.snoc hs⟩

/-- A system whose step is a function runs by folding it. -/
theorem of_foldlM {f : σ → ι → Option σ} (h : xs.foldlM f s₀ = some s) :
    Run (fun s x s' => f s x = some s') s₀ xs s := by
  induction xs using List.reverseRecOn generalizing s with
  | nil =>
      obtain rfl := Option.some.inj h
      exact .nil
  | append_singleton xs x ih =>
      rw [List.foldlM_append] at h
      obtain ⟨t, ht, hx⟩ := Option.bind_eq_some_iff.mp h
      refine (ih ht).snoc ?_
      simpa using hx

theorem cons_iff : Run step s₀ (x :: xs) s' ↔ ∃ t, step s₀ x t ∧ Run step t xs s' := by
  constructor
  · intro h
    obtain ⟨t, ht, hxs⟩ := @of_append _ _ step s₀ s' [x] xs h
    obtain ⟨s, hs, hx⟩ := @of_snoc _ _ step s₀ t [] x ht
    rw [eq_of_nil hs] at hx
    exact ⟨t, hx, hxs⟩
  · rintro ⟨t, hx, hxs⟩
    exact (single hx).append hxs

/-- A run is a run of every system with at least its steps. -/
theorem mono {step' : σ → ι → σ → Prop} (hstep : ∀ s x s', step s x s' → step' s x s')
    (h : Run step s₀ xs s) : Run step' s₀ xs s := by
  induction h with
  | nil => exact .nil
  | snoc _ hs ih => exact ih.snoc (hstep _ _ _ hs)

/-- A system whose steps are functions has one state after each run. -/
theorem deterministic (hstep : ∀ s x t t', step s x t → step s x t' → t = t')
    (h : Run step s₀ xs s) (h' : Run step s₀ xs s') : s = s' := by
  induction h generalizing s' with
  | nil => exact (eq_of_nil h').symm
  | snoc _ hs ih =>
      obtain ⟨t, ht, hx⟩ := of_snoc h'
      rw [ih ht] at hs
      exact hstep _ _ _ _ hs hx

/-- Every input of a run was taken from a state the run had reached. -/
theorem split (h : Run step s₀ (xs ++ x :: ys) s') :
    ∃ s t, Run step s₀ xs s ∧ step s x t ∧ Run step t ys s' := by
  have h' : Run step s₀ (xs ++ [x] ++ ys) s' := by simpa using h
  obtain ⟨t, ht, hys⟩ := of_append h'
  obtain ⟨s, hs, hx⟩ := of_snoc ht
  exact ⟨s, t, hs, hx, hys⟩

end Run

/-! ## Histories

A summary that keeps the last item of some kind is tied to the history by `latest`. -/

section

variable {α : Type u} {β : Type v}

/-- What `f` reads off the last item of the history it reads anything off. -/
def latest (f : α → Option β) (xs : List α) : Option β := (xs.filterMap f).getLast?

@[simp] theorem latest_nil (f : α → Option β) : latest f [] = none := rfl

theorem latest_snoc (f : α → Option β) (xs : List α) (x : α) :
    latest f (xs ++ [x]) = (f x).or (latest f xs) := by
  cases h : f x <;> simp [latest, List.filterMap_append, h, List.getLast?_append]

/-- The item that was read, and nothing after it that could be. -/
theorem latest_split {f : α → Option β} {xs : List α} {b : β} (h : latest f xs = some b) :
    ∃ before e after, xs = before ++ e :: after ∧ f e = some b ∧ ∀ e' ∈ after, f e' = none := by
  induction xs using List.reverseRecOn with
  | nil => cases h
  | append_singleton xs x ih =>
      rw [latest_snoc] at h
      cases hx : f x with
      | some b' =>
          rw [hx, Option.some_or] at h
          exact ⟨xs, x, [], rfl, hx.trans h, by simp⟩
      | none =>
          rw [hx, Option.none_or] at h
          obtain ⟨before, e, after, rfl, he, hafter⟩ := ih h
          refine ⟨before, e, after ++ [x], by simp, he, fun e' he' => ?_⟩
          rcases List.mem_append.mp he' with he' | he'
          · exact hafter e' he'
          · exact List.mem_singleton.mp he' ▸ hx

/-- A position in an extended history is its last item, or was there before. -/
theorem snoc_split {xs before after : List α} {x e : α} (h : xs ++ [x] = before ++ e :: after) :
    (after = [] ∧ before = xs ∧ e = x) ∨
      ∃ after', after = after' ++ [x] ∧ xs = before ++ e :: after' := by
  rcases List.eq_nil_or_concat after with rfl | ⟨after', y, rfl⟩
  · left
    obtain ⟨rfl, hx⟩ := List.append_inj' h rfl
    exact ⟨rfl, rfl, by simpa using hx.symm⟩
  · right
    have h' : xs ++ [x] = (before ++ e :: after') ++ [y] := by simpa using h
    obtain ⟨hxs, hx⟩ := List.append_inj' h' rfl
    obtain rfl : x = y := by simpa using hx
    exact ⟨after', by simp, hxs⟩

end

end TrwMcp.Lib
