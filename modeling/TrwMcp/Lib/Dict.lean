import Mathlib.Data.List.Perm.Basic
import Mathlib.Data.List.Induction

/-!
# Insertion-ordered dictionaries

A Python `dict` as the list of its items in insertion order. `set` replaces a value in place or
appends the item, so the keys stay distinct; `lookup` is `d.get(k)`.
-/

namespace TrwMcp.Lib

abbrev Dict (κ ν : Type) := List (κ × ν)

namespace Dict

variable {κ ν : Type} [DecidableEq κ]

/-- `d.get(k)` -/
@[grind =] def lookup : List (κ × ν) → κ → Option ν
  | [], _ => none
  | (l, w) :: rest, k => if l = k then some w else lookup rest k

/-- `d[k] = v` -/
@[grind =] def set : List (κ × ν) → κ → ν → List (κ × ν)
  | [], k, v => [(k, v)]
  | (l, w) :: rest, k, v => if l = k then (l, v) :: rest else (l, w) :: set rest k v

/-- `k in d` -/
def has (d : List (κ × ν)) (k : κ) : Bool := (lookup d k).isSome

/-- `d.setdefault(k, v)`: the value under `k` afterwards, and the dict. -/
def setDefault (d : List (κ × ν)) (k : κ) (v : ν) : ν × List (κ × ν) :=
  match lookup d k with
  | some w => (w, d)
  | none => (v, d ++ [(k, v)])

/-- `dict(pairs)`: a later value replaces an earlier one in place. -/
def ofPairs (pairs : List (κ × ν)) : List (κ × ν) := pairs.foldl (fun d p => set d p.1 p.2) []

@[simp] theorem lookup_nil (k : κ) : lookup ([] : List (κ × ν)) k = none := rfl

theorem lookup_cons (k l : κ) (v : ν) (d : List (κ × ν)) :
    lookup ((l, v) :: d) k = if l = k then some v else lookup d k := rfl

theorem mem_of_lookup {d : List (κ × ν)} {k : κ} {v : ν} (h : lookup d k = some v) :
    (k, v) ∈ d := by
  induction d with
  | nil => simp at h
  | cons m d ih =>
      obtain ⟨l, w⟩ := m
      rw [lookup_cons] at h
      split at h
      · next hl => cases h; simp [hl]
      · exact List.mem_cons_of_mem _ (ih h)

/-- With distinct keys every item is found by its key. -/
theorem lookup_of_mem {d : List (κ × ν)} (hn : (d.map (·.1)).Nodup) {k : κ} {v : ν}
    (h : (k, v) ∈ d) : lookup d k = some v := by
  induction d with
  | nil => simp at h
  | cons m d ih =>
      obtain ⟨l, w⟩ := m
      simp only [List.map_cons, List.nodup_cons] at hn
      rw [lookup_cons]
      rcases List.mem_cons.mp h with heq | hmem
      · cases heq; simp
      · have hne : l ≠ k := by
          rintro rfl
          exact hn.1 (List.mem_map.mpr ⟨_, hmem, rfl⟩)
        simp [hne, ih hn.2 hmem]

theorem lookup_eq_none_iff {d : List (κ × ν)} {k : κ} :
    lookup d k = none ↔ k ∉ d.map (·.1) := by
  induction d with
  | nil => simp
  | cons m d ih =>
      obtain ⟨l, w⟩ := m
      rw [lookup_cons]
      by_cases h : l = k
      · simp [h]
      · simp [h, ih, Ne.symm h]

theorem lookup_isSome_iff {d : List (κ × ν)} {k : κ} :
    (lookup d k).isSome ↔ k ∈ d.map (·.1) := by
  rw [← not_iff_not, Bool.not_eq_true, Option.isSome_eq_false_iff, Option.isNone_iff_eq_none]
  exact lookup_eq_none_iff

theorem lookup_append (d e : List (κ × ν)) (k : κ) :
    lookup (d ++ e) k = (lookup d k).or (lookup e k) := by
  induction d with
  | nil => rfl
  | cons m d ih =>
      obtain ⟨l, w⟩ := m
      rw [List.cons_append, lookup_cons, lookup_cons, ih]
      by_cases h : l = k <;> simp [h]

/-- With distinct keys the order of the items does not matter to `lookup`. -/
theorem lookup_perm {d e : List (κ × ν)} (hn : (d.map (·.1)).Nodup) (h : d.Perm e) (k : κ) :
    lookup d k = lookup e k := by
  have hn' : (e.map (·.1)).Nodup := (h.map _).nodup_iff.mp hn
  cases hd : lookup d k with
  | some v => exact (lookup_of_mem hn' (h.mem_iff.mp (mem_of_lookup hd))).symm
  | none =>
      symm
      rw [lookup_eq_none_iff] at hd ⊢
      rwa [← (h.map (·.1)).mem_iff]

/-! ## Updates -/

@[simp] theorem lookup_set_self (d : List (κ × ν)) (k : κ) (v : ν) :
    lookup (set d k v) k = some v := by
  induction d with
  | nil => simp [set, lookup_cons]
  | cons m d ih =>
      obtain ⟨l, w⟩ := m
      rw [set]
      split
      · next h => simp [lookup_cons, h]
      · next h => simp [lookup_cons, h, ih]

theorem lookup_set_ne (d : List (κ × ν)) {k l : κ} (h : l ≠ k) (v : ν) :
    lookup (set d k v) l = lookup d l := by
  induction d with
  | nil => simp [set, lookup_cons, Ne.symm h]
  | cons m d ih =>
      obtain ⟨l', w⟩ := m
      rw [set]
      split
      · next heq => subst heq; simp [lookup_cons, Ne.symm h]
      · simp [lookup_cons, ih]

theorem lookup_set (d : List (κ × ν)) (k l : κ) (v : ν) :
    lookup (set d k v) l = if l = k then some v else lookup d l := by
  split
  · next h => rw [h, lookup_set_self]
  · next h => exact lookup_set_ne d h v

theorem mem_of_mem_set {d : List (κ × ν)} {k : κ} {v : ν} {m : κ × ν} (h : m ∈ set d k v) :
    m = (k, v) ∨ m ∈ d := by
  induction d with
  | nil => exact .inl (List.mem_singleton.mp h)
  | cons p rest ih =>
      obtain ⟨l, w⟩ := p
      rw [set] at h
      split at h
      · next hl =>
        rcases List.mem_cons.mp h with rfl | hrest
        · exact .inl (by rw [hl])
        · exact .inr (List.mem_cons_of_mem _ hrest)
      · rcases List.mem_cons.mp h with rfl | hrest
        · exact .inr (by simp)
        · exact (ih hrest).imp_right (List.mem_cons_of_mem _)

theorem set_set (d : List (κ × ν)) (k : κ) (v w : ν) : set (set d k v) k w = set d k w := by
  induction d with
  | nil => simp [set]
  | cons m d ih =>
      obtain ⟨l, x⟩ := m
      by_cases h : l = k <;> simp [set, h, ih]

theorem set_eq_append {d : List (κ × ν)} {k : κ} (hk : k ∉ d.map (·.1)) (v : ν) :
    set d k v = d ++ [(k, v)] := by
  induction d with
  | nil => rfl
  | cons m d ih =>
      obtain ⟨l, w⟩ := m
      simp only [List.map_cons, List.mem_cons, not_or] at hk
      simp [set, Ne.symm hk.1, ih hk.2]

theorem keys_set (d : List (κ × ν)) (k : κ) (v : ν) :
    (set d k v).map (·.1) = if k ∈ d.map (·.1) then d.map (·.1) else d.map (·.1) ++ [k] := by
  induction d with
  | nil => simp [set]
  | cons m d ih =>
      obtain ⟨l, w⟩ := m
      rw [set]
      by_cases h : l = k
      · simp [h]
      · have hne : k ≠ l := fun heq => h heq.symm
        simp only [h, if_false, List.map_cons, ih, List.mem_cons, hne, false_or]
        split <;> rfl

theorem keys_set_nodup {d : List (κ × ν)} (hn : (d.map (·.1)).Nodup) (k : κ) (v : ν) :
    ((set d k v).map (·.1)).Nodup := by
  rw [keys_set]
  split
  · exact hn
  · next hk => exact List.nodup_append.mpr ⟨hn, by simp, fun a ha b hb => by
      rintro rfl
      exact hk (by simpa [List.mem_singleton.mp hb] using ha)⟩

theorem foldl_set_eq_append {pairs d : List (κ × ν)} (hn : ((d ++ pairs).map (·.1)).Nodup) :
    pairs.foldl (fun d p => set d p.1 p.2) d = d ++ pairs := by
  induction pairs generalizing d with
  | nil => simp
  | cons p pairs ih =>
      have hp : p.1 ∉ d.map (·.1) := by
        intro hmem
        rw [List.map_append, List.nodup_append] at hn
        exact hn.2.2 _ hmem _ (by simp) rfl
      rw [List.foldl_cons, set_eq_append hp]
      have htail := @ih (d ++ [p]) (by simpa using hn)
      simpa using htail

/-- Pairs with distinct keys are already a dict. -/
theorem ofPairs_eq_self {pairs : List (κ × ν)} (hn : (pairs.map (·.1)).Nodup) :
    ofPairs pairs = pairs := by
  have h := @foldl_set_eq_append κ ν _ pairs [] (by simpa using hn)
  simpa [ofPairs] using h

theorem keys_ofPairs_nodup (pairs : List (κ × ν)) : ((ofPairs pairs).map (·.1)).Nodup := by
  induction pairs using List.reverseRecOn with
  | nil => exact List.nodup_nil
  | append_singleton pairs p ih =>
      rw [ofPairs, List.foldl_append]
      exact keys_set_nodup ih p.1 p.2

/-- The last pair of a key gives its value. -/
theorem lookup_ofPairs (pairs : List (κ × ν)) (k : κ) :
    lookup (ofPairs pairs) k = (pairs.reverse.find? (·.1 = k)).map (·.2) := by
  induction pairs using List.reverseRecOn with
  | nil => rfl
  | append_singleton pairs p ih =>
      have hset : ofPairs (pairs ++ [p]) = set (ofPairs pairs) p.1 p.2 := by
        simp [ofPairs, List.foldl_append]
      rw [hset, lookup_set, List.reverse_append]
      by_cases h : p.1 = k
      · simp [h]
      · simp [h, Ne.symm h, ih]

theorem mem_of_lookup_ofPairs {pairs : List (κ × ν)} {k : κ} {v : ν}
    (h : lookup (ofPairs pairs) k = some v) : (k, v) ∈ pairs := by
  rw [lookup_ofPairs, Option.map_eq_some_iff] at h
  obtain ⟨⟨l, w⟩, hfind, rfl⟩ := h
  have hl : l = k := by simpa using List.find?_some hfind
  rw [← hl]
  exact List.mem_reverse.mp (List.mem_of_find?_eq_some hfind)

theorem lookup_ofPairs_isSome {pairs : List (κ × ν)} {k : κ} {v : ν} (h : (k, v) ∈ pairs) :
    ∃ w, lookup (ofPairs pairs) k = some w := by
  rw [lookup_ofPairs]
  cases hfind : pairs.reverse.find? (·.1 = k) with
  | some p => exact ⟨p.2, rfl⟩
  | none =>
      rw [List.find?_eq_none] at hfind
      exact absurd (decide_eq_true rfl) (hfind _ (List.mem_reverse.mpr h))

/-- `UPDATE`: every value changed in place. -/
def mapValues (f : κ → ν → ν) (d : List (κ × ν)) : List (κ × ν) := d.map fun m => (m.1, f m.1 m.2)

theorem lookup_mapValues (f : κ → ν → ν) (d : List (κ × ν)) (k : κ) :
    lookup (mapValues f d) k = (lookup d k).map (f k) := by
  induction d with
  | nil => rfl
  | cons m rest ih =>
      obtain ⟨l, w⟩ := m
      rw [mapValues, List.map_cons, lookup_cons, lookup_cons]
      by_cases hl : l = k
      · simp [hl]
      · simpa [hl, mapValues] using ih

omit [DecidableEq κ] in
@[simp] theorem keys_mapValues (f : κ → ν → ν) (d : List (κ × ν)) :
    (mapValues f d).map (·.1) = d.map (·.1) := by
  simp [mapValues, Function.comp_def]

end Dict

end TrwMcp.Lib
