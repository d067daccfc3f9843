import TrwMcp.Handoff.Jcs

/-!
# The canonical encoding as a function of the value

On the domain of the encoder `encode` always succeeds, and its text is `render`: the same text for
two values that Python's `==` identifies, because the members of a dict are sorted before anything
is written. `canon` is the representative of a value under that comparison.

* `utf16Key_injective` — two keys with the same UTF-16 code units are the same key.
* `encode_eq_render` — the encoder is total on its domain.
* `canon_eq_iff_eqv` — two values have one canonical form exactly when they are equal.
-/

namespace TrwMcp.Handoff

open Lib

/-! ## Key order -/

theorem char_toNat_valid (c : Char) :
    c.toNat < 0xD800 ∨ (0xDFFF < c.toNat ∧ c.toNat < 0x110000) := c.valid

theorem utf16Units_append_inj {c d : Char} {r s : List Nat}
    (h : utf16Units c ++ r = utf16Units d ++ s) : c = d ∧ r = s := by
  have hc := char_toNat_valid c
  have hd := char_toNat_valid d
  rw [← Char.toNat_inj]
  simp only [utf16Units] at h
  split at h <;> split at h <;> simp only [List.cons_append, List.nil_append, List.cons.injEq] at h
  · exact h
  · omega
  · omega
  · obtain ⟨h₁, h₂, h₃⟩ := h
    exact ⟨by omega, h₃⟩

theorem utf16Units_ne_nil (c : Char) : utf16Units c ≠ [] := by
  simp only [utf16Units]
  split <;> simp

theorem utf16_injective {cs ds : List Char}
    (h : cs.flatMap utf16Units = ds.flatMap utf16Units) : cs = ds := by
  induction cs generalizing ds with
  | nil =>
      cases ds with
      | nil => rfl
      | cons d ds => simp [utf16Units_ne_nil] at h
  | cons c cs ih =>
      cases ds with
      | nil => simp [utf16Units_ne_nil] at h
      | cons d ds =>
          simp only [List.flatMap_cons] at h
          obtain ⟨rfl, htail⟩ := utf16Units_append_inj h
          rw [ih htail]

theorem unitBytes_injective {us vs : List Nat}
    (h : us.flatMap (fun u => [u / 256, u % 256]) = vs.flatMap (fun u => [u / 256, u % 256])) :
    us = vs := by
  induction us generalizing vs with
  | nil =>
      cases vs with
      | nil => rfl
      | cons v vs => simp at h
  | cons u us ih =>
      cases vs with
      | nil => simp at h
      | cons v vs =>
          simp only [List.flatMap_cons, List.cons_append, List.nil_append, List.cons.injEq] at h
          obtain ⟨hdiv, hmod, htail⟩ := h
          have huv : u = v := by omega
          rw [huv, ih htail]

theorem utf16Key_injective : Function.Injective utf16Key := by
  intro k l h
  simp only [utf16Key] at h
  rw [← List.flatMap_assoc, ← List.flatMap_assoc] at h
  exact String.toList_inj.mp (utf16_injective (unitBytes_injective h))

theorem keyLe_antisymm {k l : String} (h₁ : keyLe k l) (h₂ : keyLe l k) : k = l :=
  utf16Key_injective (le_antisymm h₁ h₂)

section

variable {α : Type}

instance : Std.Total (α := String × α) fun a b => keyLe a.1 b.1 :=
  ⟨fun a b => le_total (utf16Key a.1) (utf16Key b.1)⟩

instance : IsTrans (String × α) fun a b => keyLe a.1 b.1 :=
  ⟨fun _ _ _ h₁ h₂ => le_trans h₁ h₂⟩

theorem sortMembers_perm (ms : List (String × α)) : (sortMembers ms).Perm ms :=
  List.perm_insertionSort _ ms

theorem sortMembers_pairwise (ms : List (String × α)) :
    (sortMembers ms).Pairwise fun a b => keyLe a.1 b.1 :=
  List.pairwise_insertionSort _ ms

theorem map_sortMembers {β : Type} (f : α → β) (ms : List (String × α)) :
    (sortMembers ms).map (fun m => (m.1, f m.2)) = sortMembers (ms.map fun m => (m.1, f m.2)) :=
  List.map_insertionSort _ _ _ _ fun _ _ _ _ => Iff.rfl

theorem sortMembers_eq_of_perm {ms ns : List (String × α)} (hn : (ms.map (·.1)).Nodup)
    (h : ms.Perm ns) : sortMembers ms = sortMembers ns := by
  have hp : (sortMembers ms).Perm (sortMembers ns) :=
    ((sortMembers_perm ms).trans h).trans (sortMembers_perm ns).symm
  have hinj : ∀ a ∈ ms, ∀ b ∈ ms, a.1 = b.1 → a = b := List.inj_on_of_nodup_map hn
  refine hp.eq_of_pairwise (fun a b ha hb hab hba => ?_) (sortMembers_pairwise ms)
    (sortMembers_pairwise ns)
  have ha' : a ∈ ms := (sortMembers_perm ms).mem_iff.mp ha
  have hb' : b ∈ ms := h.mem_iff.mpr ((sortMembers_perm ns).mem_iff.mp hb)
  exact hinj a ha' b hb' (keyLe_antisymm hab hba)

theorem sortMembers_sorted (ms : List (String × α)) :
    sortMembers (sortMembers ms) = sortMembers ms :=
  (sortMembers_pairwise ms).insertionSort_eq

theorem sortMembers_keys_nodup {ms : List (String × α)} (h : (ms.map (·.1)).Nodup) :
    ((sortMembers ms).map (·.1)).Nodup :=
  (((sortMembers_perm ms).map _).nodup_iff).mpr h

end

/-! ## The list helpers are maps -/

theorem encodeItems_eq (xs : List Json) : encodeItems xs = xs.map encode := by
  induction xs with
  | nil => rfl
  | cons x xs ih => simp [encodeItems, ih]

theorem encodeMembers_eq (ms : List (String × Json)) :
    encodeMembers ms = ms.map fun m => (m.1, encode m.2) := by
  induction ms with
  | nil => rfl
  | cons m ms ih => simp [encodeMembers, ih]

theorem canonItems_eq (xs : List Json) : canonItems xs = xs.map Json.canon := by
  induction xs with
  | nil => rfl
  | cons x xs ih => simp [canonItems, ih]

theorem canonMembers_eq (ms : List (String × Json)) :
    canonMembers ms = ms.map fun m => (m.1, m.2.canon) := by
  induction ms with
  | nil => rfl
  | cons m ms ih => simp [canonMembers, ih]

theorem safeItems_iff {xs : List Json} : safeItems xs ↔ ∀ x ∈ xs, x.isSafe := by
  induction xs with
  | nil => simp [safeItems]
  | cons x xs ih => simp [safeItems, ih]

theorem safeMembers_iff {ms : List (String × Json)} :
    safeMembers ms ↔ ∀ m ∈ ms, m.2.isSafe := by
  induction ms with
  | nil => simp [safeMembers]
  | cons m ms ih => simp [safeMembers, ih]

@[simp] theorem isSafe_arr {xs : List Json} : (Json.arr xs).isSafe ↔ ∀ x ∈ xs, x.isSafe := by
  simp only [Json.isSafe, safeItems_iff]

@[simp] theorem isSafe_obj {ms : List (String × Json)} :
    (Json.obj ms).isSafe ↔ (ms.map (·.1)).Nodup ∧ ∀ m ∈ ms, m.2.isSafe := by
  simp only [Json.isSafe, Bool.and_eq_true, decide_eq_true_eq, safeMembers_iff]

@[simp] theorem canon_arr (xs : List Json) : (Json.arr xs).canon = .arr (xs.map Json.canon) := by
  rw [Json.canon, canonItems_eq]

@[simp] theorem canon_obj (ms : List (String × Json)) :
    (Json.obj ms).canon = .obj (sortMembers (ms.map fun m => (m.1, m.2.canon))) := by
  rw [Json.canon, canonMembers_eq]

/-! ## The text -/

mutual

/-- The text `encode` writes for a value of its domain. -/
@[grind =] def render : Json → List Char
  | .null => ['n', 'u', 'l', 'l']
  | .bool true => ['t', 'r', 'u', 'e']
  | .bool false => ['f', 'a', 'l', 's', 'e']
  | .float text => text.toList
  | .int n => (toString n).toList
  | .str s => jsonString s
  | .arr xs => '[' :: (joinComma (renderItems xs) ++ [']'])
  | .obj ms =>
      '\x7b' :: (joinComma ((sortMembers (renderMembers ms)).map fun m =>
        jsonString m.1 ++ ':' :: m.2) ++ ['\x7d'])

@[grind =] def renderItems : List Json → List (List Char)
  | [] => []
  | x :: xs => render x :: renderItems xs

@[grind =] def renderMembers : List (String × Json) → List (String × List Char)
  | [] => []
  | (k, x) :: ms => (k, render x) :: renderMembers ms

end

theorem renderItems_eq (xs : List Json) : renderItems xs = xs.map render := by
  induction xs with
  | nil => rfl
  | cons x xs ih => simp [renderItems, ih]

theorem renderMembers_eq (ms : List (String × Json)) :
    renderMembers ms = ms.map fun m => (m.1, render m.2) := by
  induction ms with
  | nil => rfl
  | cons m ms ih => simp [renderMembers, ih]

theorem render_obj (ms : List (String × Json)) :
    render (.obj ms) = '\x7b' :: (joinComma ((sortMembers ms).map fun m =>
      jsonString m.1 ++ ':' :: render m.2) ++ ['\x7d']) := by
  rw [render, renderMembers_eq, ← map_sortMembers render]
  simp only [List.map_map, Function.comp_def]

theorem mapM_ok {α β : Type} {f : α → Py β} {g : α → β} {xs : List α}
    (h : ∀ x ∈ xs, f x = .ok (g x)) : xs.mapM f = .ok (xs.map g) := by
  induction xs with
  | nil => rfl
  | cons x xs ih =>
      have hx := h x (by simp)
      have hxs := ih fun y hy => h y (by simp [hy])
      simp [List.mapM_cons, hx, hxs, bind, Except.bind, pure, Except.pure]

theorem encode_eq_render : ∀ {v : Json}, v.isSafe → encode v = .ok (render v) := by
  intro v
  induction v using Json.ind with
  | null => intro _; rfl
  | bool b => intro _; cases b <;> rfl
  | int n =>
      intro h
      have hn : -safeInt ≤ n ∧ n ≤ safeInt := by simpa [Json.isSafe] using h
      simp [encode, render, hn, pure, Except.pure]
  | float t => intro h; simp [Json.isSafe] at h
  | str s => intro _; rfl
  | arr xs ih =>
      intro h
      rw [isSafe_arr] at h
      have hparts : (encodeItems xs).mapM id = .ok (xs.map render) := by
        rw [encodeItems_eq, List.mapM_map]
        exact mapM_ok fun x hx => ih x hx (h x hx)
      simp [encode, render, hparts, renderItems_eq, bind, Except.bind, pure, Except.pure]
  | obj ms ih =>
      intro h
      rw [isSafe_obj] at h
      have hparts : (sortMembers (encodeMembers ms)).mapM
          (fun m => do return jsonString m.1 ++ ':' :: (← m.2)) =
          .ok ((sortMembers ms).map fun m => jsonString m.1 ++ ':' :: render m.2) := by
        rw [encodeMembers_eq, ← map_sortMembers encode, List.mapM_map]
        refine mapM_ok fun m hm => ?_
        have hm' : m ∈ ms := (sortMembers_perm ms).mem_iff.mp hm
        simp [ih m hm' (h.2 m hm'), bind, Except.bind, pure, Except.pure]
      rw [encode, hparts, render_obj]
      rfl

/-! ## The canonical form -/

theorem canon_isSafe : ∀ {v : Json}, v.isSafe → v.canon.isSafe := by
  intro v
  induction v using Json.ind with
  | arr xs ih =>
      intro h
      rw [isSafe_arr] at h
      simp only [canon_arr, isSafe_arr, List.forall_mem_map]
      exact fun x hx => ih x hx (h x hx)
  | obj ms ih =>
      intro h
      rw [isSafe_obj] at h
      rw [canon_obj, isSafe_obj]
      refine ⟨sortMembers_keys_nodup (by simpa [Function.comp_def] using h.1), ?_⟩
      intro m hm
      obtain ⟨m', hm', rfl⟩ := List.mem_map.mp ((sortMembers_perm _).mem_iff.mp hm)
      exact ih m' hm' (h.2 m' hm')
  | _ => exact id

theorem canon_canon : ∀ v : Json, v.canon.canon = v.canon := by
  intro v
  induction v using Json.ind with
  | arr xs ih =>
      simp only [canon_arr, List.map_map, Json.arr.injEq]
      exact List.map_congr_left ih
  | obj ms ih =>
      simp only [canon_obj, Json.obj.injEq]
      rw [map_sortMembers Json.canon, sortMembers_sorted, List.map_map]
      exact congrArg sortMembers (List.map_congr_left fun m hm => by simp [ih m hm])
  | _ => rfl

theorem render_canon : ∀ v : Json, render v.canon = render v := by
  intro v
  induction v using Json.ind with
  | arr xs ih =>
      have hxs : xs.map (render ∘ Json.canon) = xs.map render := List.map_congr_left ih
      simp only [canon_arr, render, renderItems_eq, List.map_map, hxs]
  | obj ms ih =>
      have hms : (ms.map fun m => (m.1, m.2.canon)).map (fun m => (m.1, render m.2)) =
          ms.map fun m => (m.1, render m.2) := by
        rw [List.map_map]
        exact List.map_congr_left fun m hm => by simp [ih m hm]
      rw [canon_obj, render, render, renderMembers_eq, renderMembers_eq,
        map_sortMembers render, sortMembers_sorted, hms]
  | _ => rfl

/-! ## Python's `==` is equality of canonical forms -/

theorem eqvItems_iff {xs ys : List Json}
    (h : ∀ x ∈ xs, ∀ y ∈ ys, (x.eqv y ↔ x.canon = y.canon)) :
    eqvItems xs ys ↔ xs.map Json.canon = ys.map Json.canon := by
  induction xs generalizing ys with
  | nil => cases ys <;> simp [eqvItems]
  | cons x xs ih =>
      cases ys with
      | nil => simp [eqvItems]
      | cons y ys =>
          have hxy := h x (by simp) y (by simp)
          have htail : eqvItems xs ys ↔ xs.map Json.canon = ys.map Json.canon :=
            ih fun a ha b hb => h a (by simp [ha]) b (by simp [hb])
          simp [eqvItems, hxy, htail]

theorem eqvMembers_iff {ms ns : List (String × Json)} :
    eqvMembers ms ns ↔ ∀ m ∈ ms, ∃ y, Dict.lookup ns m.1 = some y ∧ m.2.eqv y := by
  induction ms with
  | nil => simp [eqvMembers]
  | cons m ms ih =>
      obtain ⟨k, x⟩ := m
      cases hl : Dict.lookup ns k <;> simp [eqvMembers, hl, ih]

/-- Two dicts with distinct keys are equal as finite maps exactly when one is a reordering of the
other, up to equality of the values. -/
theorem eqv_obj_iff {ms ns : List (String × Json)} (hms : (ms.map (·.1)).Nodup)
    (hns : (ns.map (·.1)).Nodup)
    (h : ∀ m ∈ ms, ∀ n ∈ ns, (m.2.eqv n.2 ↔ m.2.canon = n.2.canon)) :
    (Json.obj ms).eqv (.obj ns) ↔
      (ms.map fun m => (m.1, m.2.canon)).Perm (ns.map fun n => (n.1, n.2.canon)) := by
  simp only [Json.eqv, Bool.and_eq_true, beq_iff_eq, eqvMembers_iff]
  constructor
  · rintro ⟨hlen, hmem⟩
    have hnodup : (ms.map fun m => (m.1, m.2.canon)).Nodup :=
      List.Nodup.of_map (·.1) (by simpa [Function.comp_def] using hms)
    refine (List.subperm_of_subset hnodup ?_).perm_of_length_le (by simp [hlen])
    intro p hp
    obtain ⟨m, hm, rfl⟩ := List.mem_map.mp hp
    obtain ⟨y, hy, hxy⟩ := hmem m hm
    have hmem_ns := Dict.mem_of_lookup hy
    exact List.mem_map.mpr ⟨_, hmem_ns, by simp [(h m hm _ hmem_ns).mp hxy]⟩
  · intro hperm
    refine ⟨by simpa using hperm.length_eq, fun m hm => ?_⟩
    have hin := hperm.mem_iff.mp (List.mem_map.mpr ⟨m, hm, rfl⟩)
    obtain ⟨⟨k, y⟩, hn, heq⟩ := List.mem_map.mp hin
    simp only [Prod.mk.injEq] at heq
    obtain ⟨hk, hc⟩ := heq
    subst hk
    exact ⟨y, Dict.lookup_of_mem hns hn, (h m hm _ hn).mpr hc.symm⟩

theorem sortMembers_canon_eq_iff {ms ns : List (String × Json)} (hms : (ms.map (·.1)).Nodup) :
    (Json.obj ms).canon = (Json.obj ns).canon ↔
      (ms.map fun m => (m.1, m.2.canon)).Perm (ns.map fun n => (n.1, n.2.canon)) := by
  simp only [canon_obj, Json.obj.injEq]
  constructor
  · intro h
    exact ((sortMembers_perm _).symm.trans (.of_eq h)).trans (sortMembers_perm _)
  · exact sortMembers_eq_of_perm (by simpa [Function.comp_def] using hms)

theorem canon_eq_iff_eqv : ∀ {v w : Json}, v.isSafe → w.isSafe →
    (v.eqv w ↔ v.canon = w.canon) := by
  intro v
  induction v using Json.ind with
  | arr xs ih =>
      intro w hv hw
      cases w with
      | arr ys =>
          rw [isSafe_arr] at hv hw
          rw [Json.eqv, eqvItems_iff fun x hx y hy => ih x hx (hv x hx) (hw y hy)]
          simp
      | _ => simp [Json.eqv, Json.canon]
  | obj ms ih =>
      intro w hv hw
      cases w with
      | obj ns =>
          rw [isSafe_obj] at hv hw
          rw [sortMembers_canon_eq_iff hv.1]
          exact eqv_obj_iff hv.1 hw.1 fun m hm n hn => ih m hm (hv.2 m hm) (hw.2 n hn)
      | _ => simp [Json.eqv, Json.canon]
  | _ =>
      intro w _ _
      cases w <;> simp [Json.eqv, Json.canon]

end TrwMcp.Handoff
