import TrwMcp.Handoff.RoundTrip

/-!
# What the canonical bytes and the digest identify

* `jcs_eq_iff` — two values have the same canonical bytes exactly when they are equal.
* `digest_eq_iff` — two records have the same digest exactly when they agree on every member but
  `integrity`, if the hash is injective.
* `sealDoc_digest`, `sealDoc_idempotent` — sealing changes neither the digest nor a sealed record.
-/

namespace TrwMcp.Handoff

open Lib

/-! ## Equality as finite maps -/

/-- `a == b` for two results of `d.get(k)`. -/
def OptEqv : Option Json → Option Json → Prop := Option.Rel fun x y => x.eqv y

theorem optEqv_some {x y : Json} : OptEqv (some x) (some y) ↔ x.eqv y := by
  constructor
  · rintro ⟨h⟩; exact h
  · exact fun h => Option.Rel.some h

theorem optEqv_none : OptEqv none none := .none

theorem optEqv_of_isSome_eq {a b : Option Json} (h : a.isSome ↔ b.isSome)
    (hxy : ∀ x y, a = some x → b = some y → x.eqv y) : OptEqv a b := by
  cases a with
  | none => cases b with
    | none => exact .none
    | some y => simp at h
  | some x => cases b with
    | none => simp at h
    | some y => exact .some (hxy x y rfl rfl)

theorem OptEqv.isSome_iff {a b : Option Json} (h : OptEqv a b) : a.isSome ↔ b.isSome := by
  cases h <;> simp

theorem eqv_obj_iff_lookup {ms ns : List (String × Json)} (hms : (ms.map (·.1)).Nodup)
    (hns : (ns.map (·.1)).Nodup) :
    (Json.obj ms).eqv (.obj ns) ↔ ∀ k, OptEqv (Dict.lookup ms k) (Dict.lookup ns k) := by
  simp only [Json.eqv, Bool.and_eq_true, beq_iff_eq, eqvMembers_iff]
  constructor
  · rintro ⟨hlen, hmem⟩ k
    have hsub : ms.map (·.1) ⊆ ns.map (·.1) := by
      intro l hl
      obtain ⟨m, hm, rfl⟩ := List.mem_map.mp hl
      obtain ⟨y, hy, _⟩ := hmem m hm
      exact Dict.lookup_isSome_iff.mp (by simp [hy])
    have hkeys : (ms.map (·.1)).Perm (ns.map (·.1)) :=
      (List.subperm_of_subset hms hsub).perm_of_length_le (by simp [hlen])
    apply optEqv_of_isSome_eq
    · rw [Dict.lookup_isSome_iff, Dict.lookup_isSome_iff]
      exact hkeys.mem_iff
    · intro x y hx hy
      obtain ⟨y', hy', hxy⟩ := hmem (k, x) (Dict.mem_of_lookup hx)
      rw [hy] at hy'
      cases hy'
      exact hxy
  · intro h
    have hkeys : (ms.map (·.1)).Perm (ns.map (·.1)) :=
      (List.perm_ext_iff_of_nodup hms hns).mpr fun k => by
        rw [← Dict.lookup_isSome_iff, ← Dict.lookup_isSome_iff]
        exact (h k).isSome_iff
    refine ⟨by simpa using hkeys.length_eq, fun m hm => ?_⟩
    have hl : Dict.lookup ms m.1 = some m.2 := Dict.lookup_of_mem hms hm
    have hk := h m.1
    rw [hl] at hk
    cases hy : Dict.lookup ns m.1 with
    | none => rw [hy] at hk; cases hk
    | some y =>
        rw [hy] at hk
        exact ⟨y, rfl, optEqv_some.mp hk⟩

theorem eqv_of_perm {ms ns : List (String × Json)} (h : (Json.obj ms).isSafe)
    (hp : ns.Perm ms) : (Json.obj ms).eqv (.obj ns) ∧ (Json.obj ns).isSafe := by
  have hs := isSafe_obj.mp h
  have hns : (Json.obj ns).isSafe :=
    isSafe_obj.mpr ⟨(hp.map _).nodup_iff.mpr hs.1, fun m hm => hs.2 m (hp.mem_iff.mp hm)⟩
  refine ⟨?_, hns⟩
  rw [canon_eq_iff_eqv h hns, sortMembers_canon_eq_iff hs.1]
  exact (hp.map _).symm

/-! ## Canonical bytes -/

theorem render_eq_iff {v w : Json} (hv : v.isSafe) (hw : w.isSafe) :
    render v = render w ↔ v.eqv w := by
  rw [canon_eq_iff_eqv hv hw]
  constructor
  · intro h
    have hparse := parseText_render keepsDistinct_strictObject hv
    rw [h, parseText_render keepsDistinct_strictObject hw] at hparse
    exact (Except.ok.inj hparse).symm
  · intro h
    rw [← render_canon v, h, render_canon]

theorem jcs_eq_iff {v w : Json} (hv : v.isSafe) (hw : w.isSafe) :
    jcs v = jcs w ↔ v.eqv w := by
  rw [jcs_eq hv, jcs_eq hw, ← render_eq_iff hv hw, Except.ok.injEq]
  constructor
  · intro h
    exact String.ofList_inj.mp (String.toByteArray_inj.mp h)
  · intro h
    rw [h]

theorem eqv_canon {v : Json} (hv : v.isSafe) : v.eqv v.canon := by
  rw [canon_eq_iff_eqv hv (canon_isSafe hv), canon_canon]

/-! ## The digest -/

/-- Two records agree on every member except `integrity`. -/
def AgreesBesidesIntegrity (v w : Json) : Prop :=
  ∀ k, k ≠ "integrity" → OptEqv (v.get? k) (w.get? k)

theorem lookup_filter (ms : List (String × Json)) (k : String) :
    Dict.lookup (ms.filter fun m => m.1 != "integrity") k =
      if k = "integrity" then none else Dict.lookup ms k := by
  induction ms with
  | nil => simp
  | cons m ms ih =>
      obtain ⟨l, x⟩ := m
      by_cases hl : l = "integrity"
      · rw [List.filter_cons_of_neg (by simp [hl]), ih, Dict.lookup_cons]
        split
        · rfl
        · next hk => rw [if_neg (by rintro rfl; exact hk hl)]
      · rw [List.filter_cons_of_pos (by simp [hl]), Dict.lookup_cons, ih, Dict.lookup_cons]
        split <;> simp_all

theorem withoutIntegrity_isSafe {v : Json} (h : v.isSafe) : (withoutIntegrity v).isSafe := by
  cases v with
  | obj ms =>
      have hs := isSafe_obj.mp h
      have hsub : (ms.filter fun m => m.1 != "integrity").Sublist ms := List.filter_sublist
      exact isSafe_obj.mpr ⟨hs.1.sublist (hsub.map _), fun m hm => hs.2 m (hsub.mem hm)⟩
  | _ => rfl

theorem keys_nodup_of_isSafe {v : Json} (h : v.isSafe) : (v.members.map (·.1)).Nodup := by
  cases v with
  | obj ms => exact (isSafe_obj.mp h).1
  | _ => simp [Json.members]

theorem withoutIntegrity_eqv_iff {v w : Json} (hv : v.isSafe) (hw : w.isSafe) :
    (withoutIntegrity v).eqv (withoutIntegrity w) ↔ AgreesBesidesIntegrity v w := by
  have hkv := keys_nodup_of_isSafe (withoutIntegrity_isSafe hv)
  have hkw := keys_nodup_of_isSafe (withoutIntegrity_isSafe hw)
  simp only [withoutIntegrity, Json.members_obj] at hkv hkw ⊢
  rw [eqv_obj_iff_lookup hkv hkw]
  simp only [lookup_filter]
  constructor
  · intro h k hk
    simpa [hk, Json.get?] using h k
  · intro h k
    by_cases hk : k = "integrity"
    · simp [hk, optEqv_none]
    · simpa [hk, Json.get?] using h k hk

theorem digest_ok (lib : Stdlib) {v : Json} (hv : v.isSafe) :
    digest lib v = .ok ("sha256:" ++
      lib.sha256 (String.ofList (render (withoutIntegrity v))).toUTF8) := by
  rw [digest, jcs_eq (withoutIntegrity_isSafe hv)]
  rfl

theorem digest_eq_iff {lib : Stdlib} (hsha : Function.Injective lib.sha256) {v w : Json}
    (hv : v.isSafe) (hw : w.isSafe) :
    digest lib v = digest lib w ↔ AgreesBesidesIntegrity v w := by
  rw [← withoutIntegrity_eqv_iff hv hw,
    ← jcs_eq_iff (withoutIntegrity_isSafe hv) (withoutIntegrity_isSafe hw),
    digest_ok lib hv, digest_ok lib hw, jcs_eq (withoutIntegrity_isSafe hv),
    jcs_eq (withoutIntegrity_isSafe hw), Except.ok.injEq, Except.ok.injEq, String.append_right_inj]
  exact hsha.eq_iff

/-! ## Sealing -/

theorem filter_set_integrity (ms : List (String × Json)) (v : Json) :
    (Dict.set ms "integrity" v).filter (fun m => m.1 != "integrity") =
      ms.filter fun m => m.1 != "integrity" := by
  induction ms with
  | nil => simp [Dict.set]
  | cons m ms ih =>
      obtain ⟨l, x⟩ := m
      rw [Dict.set]
      split
      · next h => simp [h]
      · simp [List.filter_cons, ih]

/-- The `integrity` member `sealDoc` writes, given the digest and the signature kept. -/
def integrityOf (old : Option Json) (d : String) : Json :=
  .obj ([("canonicalization", .str "RFC8785"), ("digest", .str d)] ++
    match old with
    | some signature => [("signature", signature)]
    | none => [])

theorem oldSignature_integrityOf (ms : List (String × Json)) (d : String) {old : Option Json}
    (h : ∀ signature ∈ old, signature.truthy) :
    oldSignature (.obj (Dict.set ms "integrity" (integrityOf old d))) = old := by
  cases old with
  | none => simp [oldSignature, Json.get?, Dict.lookup_set_self, integrityOf, Dict.lookup_cons]
  | some signature =>
      have ht : signature.truthy := h signature rfl
      simp [oldSignature, Json.get?, Dict.lookup_set_self, integrityOf, Dict.lookup_cons, ht]

theorem oldSignature_truthy {doc s : Json} (h : oldSignature doc = some s) : s.truthy := by
  unfold oldSignature at h
  split at h
  · split at h
    · split at h
      · next ht => cases h; exact ht
      · cases h
    · cases h
  · cases h

theorem sealDoc_ok_iff {lib : Stdlib} {doc s : Json} :
    sealDoc lib doc = .ok s ↔ doc.isDict ∧ doc.get? "type" ≠ some (.str "event") ∧
      ∃ d, digest lib doc = .ok d ∧
        s = .obj (Dict.set doc.members "integrity" (integrityOf (oldSignature doc) d)) := by
  cases doc with
  | obj ms =>
      by_cases ht : Dict.lookup ms "type" = some (.str "event")
      · simp [sealDoc, Json.get, Json.get?, ht, bind, Except.bind, pure, Except.pure, throw,
          throwThe, MonadExceptOf.throw]
      · cases hd : digest lib (.obj ms) with
        | error e => simp [sealDoc, Json.get, Json.get?, ht, hd, bind, Except.bind, pure, Except.pure]
        | ok d =>
            simp [sealDoc, Json.get, Json.get?, ht, hd, bind, Except.bind, pure, Except.pure,
              integrityOf, Json.isDict]
            exact eq_comm
  | _ => simp [sealDoc, Json.get, Json.isDict, bind, Except.bind, throw, throwThe,
      MonadExceptOf.throw]

section

variable {lib : Stdlib} {doc s : Json}

theorem withoutIntegrity_sealDoc (h : sealDoc lib doc = .ok s) :
    withoutIntegrity s = withoutIntegrity doc := by
  obtain ⟨_, _, d, _, rfl⟩ := (sealDoc_ok_iff).mp h
  simp [withoutIntegrity, filter_set_integrity]

theorem sealDoc_digest (h : sealDoc lib doc = .ok s) : digest lib s = digest lib doc := by
  rw [digest, digest, withoutIntegrity_sealDoc h]

theorem oldSignature_sealDoc (h : sealDoc lib doc = .ok s) :
    oldSignature s = oldSignature doc := by
  obtain ⟨_, _, d, _, rfl⟩ := (sealDoc_ok_iff).mp h
  exact oldSignature_integrityOf _ d fun _ hs => oldSignature_truthy hs

theorem sealDoc_idempotent (h : sealDoc lib doc = .ok s) : sealDoc lib s = .ok s := by
  have hdigest := sealDoc_digest h
  have hold := oldSignature_sealDoc h
  obtain ⟨_, htype, d, hd, hs⟩ := (sealDoc_ok_iff).mp h
  refine (sealDoc_ok_iff).mpr ⟨by rw [hs]; rfl, ?_, d, by rw [hdigest, hd], ?_⟩
  · rw [hs, Json.get?, Json.members_obj, Dict.lookup_set_ne _ (by decide)]
    exact htype
  · rw [hold]
    conv_rhs => rw [hs, Json.members_obj, Dict.set_set]
    exact hs

end

/-! ## The canonical bytes are faithful -/

/-- A library whose hash is injective and right on the canonical bytes of the sample below. -/
def sampleStdlib : Stdlib where
  sha256 raw :=
    if raw = "\x7b\"a\":[true,null],\"b\":-3\x7d".toUTF8 then
      "064c16108e6546aeea76260a75cac3424cca52dd59e3d785e65a9cf527a4a00f"
    else "bytes " ++ String.ofList (raw.data.toList.map fun b => Char.ofNat b.toNat)
  nfkc := id
  nfc := id
  casefold := id
  category _ := "Ll"
  jsonOther _ := .error .unicodeDecodeError
  errorText _ := ""
  repr _ := ""
  schemaMessage _ _ _ := ""
  floatIsInteger _ := false
  floatCompare _ _ := none
  fnmatchcase name pattern := name == pattern

theorem charOfByte_injective : Function.Injective fun b : UInt8 => Char.ofNat b.toNat := by
  intro a b h
  have hval : ∀ b : UInt8, (Char.ofNat b.toNat).toNat = b.toNat := by
    intro b
    have hb : b.toNat.isValidChar := .inl (by have := b.toNat_lt; omega)
    rw [Char.ofNat, dif_pos hb]
    rfl
  rw [← UInt8.toNat_inj, ← hval a, ← hval b]
  exact congrArg Char.toNat h

theorem sampleStdlib_injective : Function.Injective sampleStdlib.sha256 := by
  have hne : ∀ cs : List Char,
      "064c16108e6546aeea76260a75cac3424cca52dd59e3d785e65a9cf527a4a00f" ≠
        "bytes " ++ String.ofList cs := by
    intro cs h
    have hlist := congrArg String.toList h
    simp at hlist
  intro a b h
  simp only [sampleStdlib] at h
  split at h <;> split at h
  · next ha hb => rw [ha, hb]
  · exact absurd h (hne _)
  · exact absurd h.symm (hne _)
  · rw [String.append_right_inj, String.ofList_inj] at h
    have hlist := charOfByte_injective.list_map h
    exact ByteArray.ext (Array.toList_inj.mp hlist)

end TrwMcp.Handoff
