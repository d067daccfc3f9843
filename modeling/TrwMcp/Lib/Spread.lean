import TrwMcp.Lib.Dict

/-!
# Spreading a dict over another

`{**base, **own}` and `{k: v for k, v in d.items() if k != key}`.
-/

namespace TrwMcp.Lib.Dict

variable {κ ν : Type} [DecidableEq κ]

/-- Spreading a dict over another: its own values win. -/
theorem lookup_spread {own : List (κ × ν)} (hn : (own.map (·.1)).Nodup) (base : List (κ × ν))
    (key : κ) : lookup (own.foldl (fun d m => set d m.1 m.2) base) key =
      (lookup own key).or (lookup base key) := by
  induction own generalizing base with
  | nil => rfl
  | cons m own ih =>
      obtain ⟨k, v⟩ := m
      rw [List.map_cons, List.nodup_cons] at hn
      rw [List.foldl_cons, ih hn.2, lookup_set, lookup_cons]
      by_cases h : key = k
      · subst h
        have hnone : lookup own key = none := lookup_eq_none_iff.mpr hn.1
        rw [hnone]
        simp
      · simp [h, Ne.symm h]

/-- A dict without one of its keys. -/
theorem lookup_without (d : List (κ × ν)) (gone key : κ) :
    lookup (d.filter fun m => m.1 ≠ gone) key = if key = gone then none else lookup d key := by
  induction d with
  | nil => simp
  | cons m d ih =>
      obtain ⟨k, v⟩ := m
      by_cases hk : k = gone
      · subst hk
        rw [List.filter_cons, if_neg (by simp), ih, lookup_cons]
        by_cases hkey : key = k
        · simp [hkey]
        · simp [hkey, Ne.symm hkey]
      · rw [List.filter_cons, if_pos (by simpa using hk), lookup_cons, lookup_cons, ih]
        by_cases hkey : k = key
        · subst hkey
          simp [hk]
        · simp [hkey]

end TrwMcp.Lib.Dict
