import TrwMcp.Handoff.Digest
import TrwMcp.Lib.Except

/-!
# Documents that read back as they are

A document read by `loads` repeats no key, and one that `jcs` encodes is in the domain of the
encoder. A dict with both properties, listed in canonical order, is what `json.loads` makes of its
own canonical bytes: not only an equal value, the same one.
-/

namespace TrwMcp.Handoff

open Lib

/-- No dict of the value repeats a key. -/
inductive Distinct : Json → Prop
  | null : Distinct .null
  | bool (b : Bool) : Distinct (.bool b)
  | int (n : Int) : Distinct (.int n)
  | float (t : String) : Distinct (.float t)
  | str (s : String) : Distinct (.str s)
  | arr {xs : List Json} (items : ∀ x ∈ xs, Distinct x) : Distinct (.arr xs)
  | obj {ms : List (String × Json)} (keys : (ms.map (·.1)).Nodup)
      (values : ∀ m ∈ ms, Distinct m.2) : Distinct (.obj ms)

namespace Distinct

theorem of_get? {v w : Json} {k : String} (h : Distinct v) (hk : v.get? k = some w) :
    Distinct w := by
  cases h with
  | obj keys values => exact values _ (Dict.mem_of_lookup hk)
  | _ => cases hk

theorem set {ms : List (String × Json)} {k : String} {v : Json} (h : Distinct (.obj ms))
    (hv : Distinct v) : Distinct (.obj (Dict.set ms k v)) := by
  cases h with
  | obj keys values =>
      refine .obj (Dict.keys_set_nodup keys k v) fun m hm => ?_
      rcases Dict.mem_of_mem_set hm with rfl | hm
      · exact hv
      · exact values m hm

theorem canon {v : Json} (h : Distinct v) : Distinct v.canon := by
  induction h with
  | arr _ ih =>
      rw [canon_arr]
      exact .arr (List.forall_mem_map.mpr ih)
  | @obj ms keys _ ih =>
      rw [canon_obj]
      refine .obj (sortMembers_keys_nodup (by simpa [Function.comp_def] using keys)) ?_
      intro m hm
      obtain ⟨m', hm', rfl⟩ := List.mem_map.mp ((sortMembers_perm _).mem_iff.mp hm)
      exact ih m' hm'
  | null => exact .null
  | bool b => exact .bool b
  | int n => exact .int n
  | float t => exact .float t
  | str s => exact .str s

theorem isSafe {v : Json} (h : Distinct v) : ∀ {cs : List Char}, encode v = .ok cs → v.isSafe := by
  induction h with
  | null | bool _ | str _ => exact fun _ => rfl
  | float t => exact fun h => by cases h
  | int n =>
      intro cs h
      by_cases hn : -safeInt ≤ n ∧ n ≤ safeInt
      · simpa [Json.isSafe] using hn
      · simp [encode, hn, throw, throwThe, MonadExceptOf.throw] at h
  | arr _ ih =>
      intro cs h
      simp only [encode, encodeItems_eq, List.mapM_map, Except.bind_eq_ok] at h
      obtain ⟨parts, hparts, _⟩ := h
      rw [isSafe_arr]
      intro x hx
      obtain ⟨part, _, hpart⟩ := Except.of_mem_mapM hparts x hx
      exact ih x hx hpart
  | @obj ms keys _ ih =>
      intro cs h
      simp only [encode, encodeMembers_eq, Except.bind_eq_ok] at h
      obtain ⟨parts, hparts, _⟩ := h
      rw [isSafe_obj]
      refine ⟨keys, fun m hm => ?_⟩
      have hmem : (m.1, encode m.2) ∈ sortMembers (ms.map fun m => (m.1, encode m.2)) :=
        (sortMembers_perm _).mem_iff.mpr (List.mem_map.mpr ⟨m, hm, rfl⟩)
      obtain ⟨part, _, hpart⟩ := Except.of_mem_mapM hparts _ hmem
      obtain ⟨text, htext, _⟩ := Except.bind_eq_ok.mp hpart
      exact ih m hm htext

end Distinct

theorem get?_canon {ms : List (String × Json)} (hn : (ms.map (·.1)).Nodup) (k : String) :
    (Json.obj ms).canon.get? k = ((Json.obj ms).get? k).map Json.canon := by
  have hmap : (Dict.mapValues (fun _ => Json.canon) ms).map (·.1) = ms.map (·.1) :=
    Dict.keys_mapValues _ _
  rw [canon_obj, Json.get?, Json.members_obj,
    ← Dict.lookup_perm (by simpa [Function.comp_def] using hn) (sortMembers_perm _).symm]
  exact Dict.lookup_mapValues (fun _ => Json.canon) ms k

/-! ## What the record parser reads -/

section

variable {hook : List (String × Json) → Py Json}

/-- What the hook makes of members repeats no key. -/
def MakesDistinct (hook : List (String × Json) → Py Json) : Prop :=
  ∀ ms j, (∀ m ∈ ms, Distinct m.2) → hook ms = .ok j → Distinct j

theorem scanUnsigned_distinct {negative : Bool} {cs rest : List Char} {j : Json}
    (h : scanUnsigned negative cs = .ok (j, rest)) : Distinct j := by
  unfold scanUnsigned at h
  split at h
  · cases h
  · simp only at h
    split at h
    · split at h
      · cases h
      · cases h
        exact .int _
    · cases h
      exact .float _

theorem scanScalar_distinct {cs rest : List Char} {j : Json}
    (h : scanScalar cs = .ok (j, rest)) : Distinct j := by
  unfold scanScalar at h
  split at h
  · split at h
    · cases h
      exact .float _
    · exact scanUnsigned_distinct h
  · repeat' split at h
    · cases h; exact .null
    · cases h; exact .bool _
    · cases h; exact .bool _
    · cases h; exact .float _
    · cases h; exact .float _
    · exact scanUnsigned_distinct h

theorem scan_distinct (hhook : MakesDistinct hook) (n : Nat) :
    (∀ cs j rest, scanOnce hook n cs = .ok (j, rest) → Distinct j) ∧
    (∀ cs xs rest, scanItems hook n cs = .ok (xs, rest) → ∀ x ∈ xs, Distinct x) ∧
    (∀ cs ms rest, scanMembers hook n cs = .ok (ms, rest) → ∀ m ∈ ms, Distinct m.2) := by
  induction n with
  | zero => refine ⟨?_, ?_, ?_⟩ <;> intro cs _ _ h <;> cases h
  | succ n ih =>
      obtain ⟨honce, hitems, hmembers⟩ := ih
      refine ⟨fun cs j rest h => ?_, fun cs xs rest h => ?_, fun cs ms rest h => ?_⟩
      · unfold scanOnce at h
        split at h
        · obtain ⟨_, _, h⟩ := Except.bind_eq_ok.mp h
          cases h
          exact .str _
        · split at h
          · cases h
            exact .arr (by simp)
          · obtain ⟨⟨xs, _⟩, hxs, h⟩ := Except.bind_eq_ok.mp h
            cases h
            exact .arr (hitems _ _ _ hxs)
        · split at h
          · obtain ⟨made, hmade, h⟩ := Except.bind_eq_ok.mp h
            cases h
            exact hhook _ _ (by simp) hmade
          · obtain ⟨⟨ms, _⟩, hms, h⟩ := Except.bind_eq_ok.mp h
            obtain ⟨made, hmade, h⟩ := Except.bind_eq_ok.mp h
            cases h
            exact hhook _ _ (hmembers _ _ _ hms) hmade
        · exact scanScalar_distinct h
      · unfold scanItems at h
        obtain ⟨⟨x, rest'⟩, hx, h⟩ := Except.bind_eq_ok.mp h
        simp only at h
        split at h
        · cases h
          simpa using honce _ _ _ hx
        · obtain ⟨⟨xs', _⟩, hxs, h⟩ := Except.bind_eq_ok.mp h
          cases h
          exact List.forall_mem_cons.mpr ⟨honce _ _ _ hx, hitems _ _ _ hxs⟩
        · cases h
      · unfold scanMembers at h
        split at h
        · obtain ⟨⟨k, rest'⟩, _, h⟩ := Except.bind_eq_ok.mp h
          simp only at h
          split at h
          · obtain ⟨⟨x, rest''⟩, hx, h⟩ := Except.bind_eq_ok.mp h
            simp only at h
            split at h
            · cases h
              simpa using honce _ _ _ hx
            · obtain ⟨⟨ms', _⟩, hms, h⟩ := Except.bind_eq_ok.mp h
              cases h
              exact List.forall_mem_cons.mpr ⟨honce _ _ _ hx, hmembers _ _ _ hms⟩
            · cases h
          · cases h
        · cases h

theorem parseText_distinct (hhook : MakesDistinct hook) {text : String} {j : Json}
    (h : parseText hook text = .ok j) : Distinct j := by
  unfold parseText at h
  split at h
  · cases h
  · obtain ⟨⟨x, rest⟩, hx, h⟩ := Except.bind_eq_ok.mp h
    simp only at h
    split at h
    · cases h
      exact (scan_distinct hhook _).1 _ _ _ hx
    · cases h

end

theorem nodup_of_firstDuplicate {ms : List (String × Json)} {seen : List String}
    (h : firstDuplicate seen ms = none) :
    (ms.map (·.1)).Nodup ∧ ∀ k ∈ ms.map (·.1), k ∉ seen := by
  induction ms generalizing seen with
  | nil => simp
  | cons m ms ih =>
      obtain ⟨k, x⟩ := m
      rw [firstDuplicate] at h
      split at h
      · cases h
      · next hk =>
        obtain ⟨hnodup, hfresh⟩ := ih h
        refine ⟨List.nodup_cons.mpr ⟨fun hmem => hfresh k hmem (by simp), hnodup⟩, ?_⟩
        intro l hl
        rcases List.mem_cons.mp hl with rfl | hl
        · exact hk
        · exact fun hseen => hfresh l hl (List.mem_cons_of_mem _ hseen)

theorem makesDistinct_strictObject : MakesDistinct strictObject := by
  intro ms j hvalues h
  unfold strictObject at h
  split at h
  · cases h
  · next hnone =>
    cases h
    exact .obj (nodup_of_firstDuplicate hnone).1 hvalues

theorem loads_ok {lib : Stdlib} {raw : ByteArray} {doc : Json} (h : loads lib raw = .ok doc) :
    Distinct doc ∧ doc.isDict := by
  unfold loads at h
  by_cases hsize : raw.size > maxInputBytes
  · rw [if_pos hsize] at h
    cases h
  · rw [if_neg hsize] at h
    simp only at h
    split at h
    · cases h
    · split at h
      · cases h
      · cases h
      · next hparse =>
        cases h
        exact ⟨parseText_distinct makesDistinct_strictObject hparse, rfl⟩
      · cases h

/-! ## Listed documents -/

/-- A dict that repeats no key and is listed in canonical order. -/
structure Listed (doc : Json) : Prop where
  distinct : Distinct doc
  dict : doc.isDict
  canonical : doc.canon = doc

theorem isDict_canon (v : Json) : v.canon.isDict = v.isDict := by
  cases v <;> simp [Json.isDict, Json.canon]

theorem Distinct.listed {doc : Json} (h : Distinct doc) (hd : doc.isDict) : Listed doc.canon :=
  ⟨h.canon, by rw [isDict_canon, hd], canon_canon doc⟩

theorem oldSignature_distinct {doc v : Json} (h : Distinct doc) (hv : oldSignature doc = some v) :
    Distinct v := by
  unfold oldSignature at hv
  split at hv
  · next ms hms =>
    split at hv
    · next w hw =>
      split at hv
      · cases hv
        exact (h.of_get? hms).of_get? hw
      · cases hv
    · cases hv
  · cases hv

theorem sealDoc_distinct {lib : Stdlib} {doc sealed : Json} (h : Distinct doc)
    (hseal : sealDoc lib doc = .ok sealed) : Distinct sealed ∧ sealed.isDict := by
  obtain ⟨hdict, _, d, _, rfl⟩ := sealDoc_ok_iff.mp hseal
  refine ⟨?_, rfl⟩
  have hms : Distinct (.obj doc.members) := by
    cases doc with
    | obj ms => exact h
    | _ => cases hdict
  refine hms.set ?_
  cases hold : oldSignature doc with
  | none =>
      refine .obj (by simp) fun m hm => ?_
      simp only [List.append_nil, List.mem_cons, List.not_mem_nil, or_false] at hm
      rcases hm with rfl | rfl <;> exact .str _
  | some v =>
      refine .obj (by simp) fun m hm => ?_
      simp only [List.cons_append, List.nil_append, List.mem_cons, List.not_mem_nil,
        or_false] at hm
      rcases hm with rfl | rfl | rfl
      · exact .str _
      · exact .str _
      · exact oldSignature_distinct h hold

/-! ## The bytes -/

theorem byteArray_loop (b : ByteArray) (i : Nat) (r : List UInt8) :
    ByteArray.toList.loop b i r = r.reverse ++ b.data.toList.drop i := by
  fun_induction ByteArray.toList.loop b i r with
  | case1 i r hi ih =>
      have hi' : i < b.data.toList.length := by simpa using hi
      have hget : b.get! i = b.data.toList[i] := by
        rw [Array.getElem_toList]
        exact getElem!_pos b.data i (by simpa using hi)
      rw [ih, List.drop_eq_getElem_cons hi']
      simp [hget]
  | case2 i r hi =>
      have hi' : b.data.toList.length ≤ i := by simpa using hi
      rw [List.drop_eq_nil_of_le hi', List.append_nil]

theorem toUTF8_toList (cs : List Char) :
    (String.ofList cs).toUTF8.toList = cs.flatMap String.utf8EncodeChar := by
  have hdata (b : ByteArray) : b.toList = b.data.toList := by
    simp [ByteArray.toList, byteArray_loop]
  rw [hdata, String.toUTF8_eq_toByteArray, String.toByteArray_ofList, List.utf8Encode,
    List.toList_data_toByteArray]

theorem detectsUtf8_brace {b : UInt8} (hb : b ≠ 0) (rest : List UInt8) :
    detectsUtf8 (0x7b :: b :: rest) = true := by
  have hne : (b != 0) = true := by simpa using hb
  cases rest with
  | nil => exact hne
  | cons c rest =>
      cases rest with
      | nil => rfl
      | cons d rest => exact hne

theorem detectsUtf8_render (ms : List (String × Json)) :
    detectsUtf8 (String.ofList (render (.obj ms))).toUTF8.toList = true := by
  have hbrace : String.utf8EncodeChar '\x7b' = [0x7b] := by decide
  have hclose : String.utf8EncodeChar '\x7d' = [0x7d] := by decide
  have hquote : String.utf8EncodeChar '"' = [0x22] := by decide
  rw [toUTF8_toList, render_obj, List.flatMap_cons, hbrace]
  cases sortMembers ms with
  | nil =>
      rw [List.map_nil, joinComma_nil, List.nil_append, List.flatMap_cons, hclose]
      exact detectsUtf8_brace (by decide) _
  | cons m ms' =>
      obtain ⟨cs, hcs⟩ : ∃ cs, joinComma ((m :: ms').map fun m =>
          jsonString m.1 ++ ':' :: render m.2) = '"' :: cs := by
        cases ms' <;> simp [joinComma_singleton, joinComma_cons_cons, jsonString]
      rw [hcs]
      show detectsUtf8 (0x7b :: ('"' :: (cs ++ ['\x7d'])).flatMap String.utf8EncodeChar) = true
      rw [List.flatMap_cons, hquote]
      exact detectsUtf8_brace (by decide) _

theorem Listed.jsonLoads {doc : Json} {raw : ByteArray} (h : Listed doc) (hraw : jcs doc = .ok raw)
    (lib : Stdlib) : jsonLoads lib raw = .ok doc := by
  obtain ⟨cs, hcs, _⟩ := Except.bind_eq_ok.mp hraw
  have hsafe : doc.isSafe := h.distinct.isSafe hcs
  rw [jcs_eq hsafe] at hraw
  obtain rfl := Except.ok.inj hraw
  have hparse := parseText_render keepsDistinct_plainObject hsafe
  obtain ⟨ms, rfl⟩ : ∃ ms, doc = .obj ms := by
    cases doc with
    | obj ms => exact ⟨ms, rfl⟩
    | _ => cases h.dict
  rw [h.canonical] at hparse
  simp only [Handoff.jsonLoads, detectsUtf8_render, if_true, fromUTF8_toUTF8, hparse]

end TrwMcp.Handoff
