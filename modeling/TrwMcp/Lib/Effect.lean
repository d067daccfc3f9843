import Mathlib

/-!
# Computations with a state and exceptions

A computation reads and changes a state, and ends with a value or an exception; the changes made
before an exception stay. A relation between states that is reflexive and transitive is kept by a
computation whose steps keep it.
-/

namespace TrwMcp.Lib

/-- The value or the exception, and the state it ends in. -/
def Eff (ε σ α : Type) := σ → Except ε α × σ

namespace Eff

variable {ε σ α β : Type}

def pure (a : α) : Eff ε σ α := fun s => (.ok a, s)

def bind (m : Eff ε σ α) (f : α → Eff ε σ β) : Eff ε σ β := fun s =>
  match m s with
  | (.ok a, s') => f a s'
  | (.error e, s') => (.error e, s')

instance : Monad (Eff ε σ) where
  pure := pure
  bind := bind

def raise (e : ε) : Eff ε σ α := fun s => (.error e, s)

def read : Eff ε σ σ := fun s => (.ok s, s)

def update (f : σ → σ) : Eff ε σ Unit := fun s => (.ok (), f s)

/-- `try` with an `except` for the exceptions `caught` tells. -/
def handle (caught : ε → Bool) (m : Eff ε σ α) (f : ε → Eff ε σ α) : Eff ε σ α := fun s =>
  match m s with
  | (.ok a, s') => (.ok a, s')
  | (.error e, s') => if caught e then f e s' else (.error e, s')

variable {m : Eff ε σ α} {f : α → Eff ε σ β} {s s' : σ}

theorem pure_eq_ok {a b : α} : (Pure.pure a : Eff ε σ α) s = (.ok b, s') ↔ a = b ∧ s = s' := by
  change ((Except.ok a, s) : Except ε α × σ) = (.ok b, s') ↔ _
  simp

theorem read_eq_ok {t : σ} : (read : Eff ε σ σ) s = (.ok t, s') ↔ s = t ∧ s = s' := by
  simp [read]

theorem update_eq_ok {g : σ → σ} {u : Unit} :
    (update g : Eff ε σ Unit) s = (.ok u, s') ↔ g s = s' := by
  simp [update]

theorem raise_ne_ok {e : ε} {a : α} : (raise e : Eff ε σ α) s ≠ (.ok a, s') := by
  simp [raise]

/-- A sequence that ends with a value ran both parts to their values. -/
theorem bind_eq_ok {b : β} : (m >>= f) s = (.ok b, s') ↔
    ∃ a t, m s = (.ok a, t) ∧ f a t = (.ok b, s') := by
  change bind m f s = (.ok b, s') ↔ _
  unfold bind
  cases hm : m s with
  | mk r t =>
      cases r with
      | ok a => simp
      | error e => simp

/-- A sequence that ends with an exception got it from its first part or from its second. -/
theorem bind_eq_error {e : ε} : (m >>= f) s = (.error e, s') ↔
    m s = (.error e, s') ∨ ∃ a t, m s = (.ok a, t) ∧ f a t = (.error e, s') := by
  change bind m f s = (.error e, s') ↔ _
  unfold bind
  cases hm : m s with
  | mk r t =>
      cases r with
      | ok a => simp
      | error e => simp

theorem bind_of_ok {a : α} (h : m s = (.ok a, s')) : (m >>= f) s = f a s' := by
  change bind m f s = f a s'
  rw [bind, h]

theorem read_bind (g : σ → Eff ε σ α) (s : σ) : (read >>= g) s = g s s := rfl

theorem bind_of_error {e : ε} (h : m s = (.error e, s')) : (m >>= f) s = (.error e, s') := by
  change bind m f s = _
  rw [bind, h]

theorem handle_of_error {caught : ε → Bool} {g : ε → Eff ε σ α} {e : ε}
    (h : m s = (.error e, s')) :
    handle caught m g s = if caught e then g e s' else (.error e, s') := by
  rw [handle, h]

theorem handle_of_ok {caught : ε → Bool} {g : ε → Eff ε σ α} {a : α} (h : m s = (.ok a, s')) :
    handle caught m g s = (.ok a, s') := by
  rw [handle, h]

theorem handle_eq_ok {caught : ε → Bool} {g : ε → Eff ε σ α} {a : α} :
    handle caught m g s = (.ok a, s') ↔ m s = (.ok a, s') ∨
      ∃ e t, m s = (.error e, t) ∧ caught e = true ∧ g e t = (.ok a, s') := by
  unfold handle
  cases hm : m s with
  | mk r t =>
      cases r with
      | ok a => simp
      | error e =>
          by_cases hcaught : caught e = true
          · simp [hcaught]
          · simp [hcaught]

/-! ## Relations kept -/

/-- However the computation ends, the states before and after are related. -/
def Moves (R : σ → σ → Prop) (m : Eff ε σ α) : Prop := ∀ s, R s (m s).2

section

variable {R : σ → σ → Prop}

theorem Moves.at (hm : Moves R m) {r : Except ε α} (h : m s = (r, s')) : R s s' := by
  have := hm s
  rwa [h] at this

theorem moves_pure (hrefl : ∀ s, R s s) (a : α) : Moves R (Pure.pure a : Eff ε σ α) :=
  fun s => hrefl s

theorem moves_raise (hrefl : ∀ s, R s s) (e : ε) : Moves R (raise e : Eff ε σ α) :=
  fun s => hrefl s

theorem moves_read (hrefl : ∀ s, R s s) : Moves R (read : Eff ε σ σ) := fun s => hrefl s

theorem moves_bind (htrans : ∀ s t u, R s t → R t u → R s u) (hm : Moves R m)
    (hf : ∀ a, Moves R (f a)) : Moves R (m >>= f) := by
  intro s
  change R s (bind m f s).2
  unfold bind
  have hfirst := hm s
  cases hs : m s with
  | mk r t =>
      rw [hs] at hfirst
      cases r with
      | ok a => exact htrans _ _ _ hfirst (hf a t)
      | error e => exact hfirst

theorem moves_handle (htrans : ∀ s t u, R s t → R t u → R s u) {caught : ε → Bool}
    {g : ε → Eff ε σ α} (hm : Moves R m) (hg : ∀ e, Moves R (g e)) :
    Moves R (handle caught m g) := by
  intro s
  unfold handle
  have hfirst := hm s
  cases hs : m s with
  | mk r t =>
      rw [hs] at hfirst
      cases r with
      | ok a => exact hfirst
      | error e =>
          by_cases hcaught : caught e = true
          · simp only [hcaught, if_true]
            exact htrans _ _ _ hfirst (hg e t)
          · simp only [hcaught]
            exact hfirst

end

end Eff

end TrwMcp.Lib
