import Mathlib.Data.List.Forall2

/-!
# Computations that may raise

Inverting a successful run of an `Except` computation: a bind succeeded because both of its parts
did. `simp only [Except.bind_eq_ok, Except.pure_eq_ok, ite_eq_iff]` turns a successful `do` block
into the facts each of its lines established.
-/

namespace TrwMcp.Lib.Except

universe u v

variable {ε : Type u} {α β : Type v}

theorem bind_eq_ok {x : Except ε α} {f : α → Except ε β} {b : β} :
    (x >>= f) = .ok b ↔ ∃ a, x = .ok a ∧ f a = .ok b := by
  cases x <;> simp [bind, Except.bind]

theorem pure_eq_ok {a b : α} : (pure a : Except ε α) = .ok b ↔ a = b := by
  simp [pure, Except.pure]

theorem throw_ne_ok {e : ε} {b : α} : (throw e : Except ε α) ≠ .ok b := by
  simp [throw, throwThe, MonadExceptOf.throw]

theorem ok_of_toOption {x : Except ε α} {a : α} (h : x.toOption = some a) : x = .ok a := by
  cases x with
  | error e => cases h
  | ok b => exact congrArg _ (Option.some.inj h)

/-- A map that succeeded did so item by item. -/
theorem forall₂_of_mapM {γ δ : Type} {f : γ → Except ε δ} {xs : List γ} {ys : List δ}
    (h : xs.mapM f = .ok ys) : List.Forall₂ (fun x y => f x = .ok y) xs ys := by
  induction xs generalizing ys with
  | nil =>
      obtain rfl := pure_eq_ok.mp h
      exact .nil
  | cons x xs ih =>
      simp only [List.mapM_cons, bind_eq_ok, pure_eq_ok] at h
      obtain ⟨y, hy, ys', hys, rfl⟩ := h
      exact .cons hy (ih hys)

theorem of_mem_mapM {γ δ : Type} {f : γ → Except ε δ} {xs : List γ} {ys : List δ}
    (h : xs.mapM f = .ok ys) : ∀ x ∈ xs, ∃ y ∈ ys, f x = .ok y := by
  have hall := forall₂_of_mapM h
  clear h
  induction hall with
  | nil => simp
  | cons hy _ ih =>
      intro x hx
      rcases List.mem_cons.mp hx with rfl | hx
      · exact ⟨_, by simp, hy⟩
      · obtain ⟨y, hmem, hxy⟩ := ih x hx
        exact ⟨y, List.mem_cons_of_mem _ hmem, hxy⟩

theorem exists_of_mem_mapM {γ δ : Type} {f : γ → Except ε δ} {xs : List γ} {ys : List δ}
    (h : xs.mapM f = .ok ys) : ∀ y ∈ ys, ∃ x ∈ xs, f x = .ok y := by
  have hall := forall₂_of_mapM h
  clear h
  induction hall with
  | nil => simp
  | cons hx _ ih =>
      intro y hy
      rcases List.mem_cons.mp hy with rfl | hy
      · exact ⟨_, by simp, hx⟩
      · obtain ⟨x, hmem, hxy⟩ := ih y hy
        exact ⟨x, List.mem_cons_of_mem _ hmem, hxy⟩

/-- A fold that succeeded keeps what each of its steps keeps. -/
theorem foldlM_invariant {γ σ : Type} {f : σ → γ → Except ε σ} {I : σ → Prop} {xs : List γ}
    {s s' : σ} (hstep : ∀ s x s', x ∈ xs → I s → f s x = .ok s' → I s') (h0 : I s)
    (h : xs.foldlM f s = .ok s') : I s' := by
  induction xs generalizing s with
  | nil =>
      simp only [List.foldlM_nil, pure_eq_ok] at h
      exact h ▸ h0
  | cons x xs ih =>
      simp only [List.foldlM_cons, bind_eq_ok] at h
      obtain ⟨t, ht, h⟩ := h
      exact ih (fun s y s' hy => hstep s y s' (List.mem_cons_of_mem _ hy))
        (hstep s x t (by simp) h0 ht) h

/-- `any` over a monadic test that succeeded found an element, or tested them all. -/
theorem anyM_eq_ok {γ : Type} {xs : List γ} {p : γ → Except ε Bool} {b : Bool}
    {q : γ → Bool} (hq : ∀ x ∈ xs, ∀ c, p x = .ok c → q x = c) (h : xs.anyM p = .ok b) :
    xs.any q = b := by
  induction xs with
  | nil => simpa [List.anyM, pure, Except.pure] using h
  | cons x xs ih =>
      rw [List.anyM, bind_eq_ok] at h
      obtain ⟨c, hc, hrest⟩ := h
      have hx : q x = c := hq x (by simp) c hc
      cases c with
      | true =>
          obtain rfl : true = b := by simpa [pure, Except.pure] using hrest
          simp [hx]
      | false =>
          have htail := ih (fun y hy => hq y (by simp [hy])) hrest
          simp [hx, htail]

end TrwMcp.Lib.Except
