import TrwMcp.Bootstrap.Markers
import Mathlib.Data.List.Infix

/-!
# Merging twice is merging once

The section that was merged into a text is found again, where it was put, so a second merge writes
the same text. What the text holds outside the old section stays.
-/

namespace TrwMcp.Bootstrap.Markers

open Lib

/-- A marker that is the text of a line. -/
structure IsMarker (marker : List Char) : Prop where
  ne_nil : marker ≠ []
  line : ∀ c ∈ marker, c ≠ '\n' ∧ c ≠ '\r'
  first : ∀ c ∈ marker.head?, isBlank c = false

/-- The text stops at the start of a line, behind blanks only. -/
def LineTail (text : List Char) : Prop :=
  ∃ a b, text = a ++ b ∧ (∀ c ∈ b, isBlank c = true) ∧ (a = [] ∨ a.getLast? = some '\n')

theorem IsMarker.cons {marker : List Char} (h : IsMarker marker) :
    ∃ c cs, marker = c :: cs ∧ isBlank c = false := by
  obtain ⟨c, cs, rfl⟩ := List.exists_cons_of_ne_nil h.ne_nil
  exact ⟨c, cs, rfl, h.first c rfl⟩

/-! ## The first start -/

theorem leadMatch_some {marker cs : List Char} {n : Nat} (h : leadMatch marker cs = some n) :
    ∃ b t, cs = b ++ t ∧ b.length = n ∧ (∀ c ∈ b, isBlank c = true) ∧ marker <+: t := by
  induction cs generalizing n with
  | nil =>
      unfold leadMatch at h
      split at h
      next hfound =>
        cases h
        exact ⟨[], [], rfl, rfl, by simp, List.isPrefixOf_iff_prefix.1 hfound⟩
      next => cases h
  | cons c cs ih =>
      unfold leadMatch at h
      split at h
      next m hm =>
        cases h
        split at hm
        next hblank =>
          obtain ⟨b, t, rfl, rfl, hb, ht⟩ := ih hm
          exact ⟨c :: b, t, rfl, rfl, by simpa [hblank] using hb, ht⟩
        next => cases hm
      next =>
        split at h
        next hfound =>
          cases h
          exact ⟨[], c :: cs, rfl, rfl, by simp, List.isPrefixOf_iff_prefix.1 hfound⟩
        next => cases h

theorem leadMatch_blanks {marker b t : List Char} (hm : IsMarker marker)
    (hb : ∀ c ∈ b, isBlank c = true) (ht : marker <+: t) :
    leadMatch marker (b ++ t) = some b.length := by
  induction b with
  | nil =>
      obtain ⟨c, cs, hmarker, hc⟩ := hm.cons
      obtain ⟨rest, rfl⟩ := ht
      have hfound : marker.isPrefixOf (marker ++ rest) = true :=
        List.isPrefixOf_iff_prefix.2 (List.prefix_append ..)
      rw [List.nil_append]
      generalize hwhole : marker ++ rest = whole at hfound
      rw [hmarker, List.cons_append] at hwhole
      subst hwhole
      rw [leadMatch, if_neg (by simp [hc]), if_pos hfound]
      rfl
  | cons c b ih =>
      have hc : isBlank c = true := hb c (.head _)
      rw [List.cons_append, leadMatch, if_pos hc, ih fun d hd => hb d (.tail _ hd)]
      rfl

theorem findStart_some {marker cs : List Char} {lineStart : Bool} {p : Nat}
    (h : findStart marker lineStart cs = some p) :
    ∃ a b t, cs = a ++ (b ++ t) ∧ (a ++ b).length = p ∧ (∀ c ∈ b, isBlank c = true) ∧
      (a = [] ∧ lineStart = true ∨ a.getLast? = some '\n') ∧ marker <+: t := by
  induction cs generalizing lineStart p with
  | nil =>
      unfold findStart at h
      split at h
      next hstart =>
        obtain ⟨b, t, hcs, hn, hb, ht⟩ := leadMatch_some h
        exact ⟨[], b, t, hcs, hn, hb, .inl ⟨rfl, hstart⟩, ht⟩
      next => cases h
  | cons c cs ih =>
      unfold findStart at h
      split at h
      next n hn =>
        cases h
        split at hn
        next hstart =>
          obtain ⟨b, t, hcs, hlength, hb, ht⟩ := leadMatch_some hn
          exact ⟨[], b, t, hcs, hlength, hb, .inl ⟨rfl, hstart⟩, ht⟩
        next => cases hn
      next =>
        obtain ⟨q, hq, rfl⟩ := Option.map_eq_some_iff.1 h
        obtain ⟨a, b, t, rfl, rfl, hb, ha, ht⟩ := ih hq
        refine ⟨c :: a, b, t, rfl, rfl, hb, .inr ?_, ht⟩
        rcases ha with ⟨rfl, hc⟩ | ha
        · rw [beq_iff_eq.1 hc]
          rfl
        · rw [List.getLast?_cons, ha]
          rfl

theorem findStart_le {marker a b t : List Char} {lineStart : Bool} (hm : IsMarker marker)
    (hb : ∀ c ∈ b, isBlank c = true) (ha : a = [] ∧ lineStart = true ∨ a.getLast? = some '\n')
    (ht : marker <+: t) :
    ∃ q ≤ (a ++ b).length, findStart marker lineStart (a ++ (b ++ t)) = some q := by
  induction a generalizing lineStart with
  | nil =>
      obtain rfl : lineStart = true := by simpa using ha
      have hlead := leadMatch_blanks hm hb ht
      refine ⟨b.length, by simp, ?_⟩
      rw [List.nil_append]
      cases hbt : b ++ t with
      | nil =>
          unfold findStart
          rw [if_pos rfl, ← hbt, hlead]
      | cons c cs =>
          unfold findStart
          rw [if_pos rfl, ← hbt, hlead]
  | cons c a ih =>
      show ∃ q ≤ _, findStart marker lineStart (c :: (a ++ (b ++ t))) = some q
      rw [findStart]
      cases hlead : (if lineStart then leadMatch marker (c :: (a ++ (b ++ t))) else none) with
      | some n =>
          refine ⟨n, ?_, rfl⟩
          split at hlead
          next =>
            obtain ⟨b', t', hcs, rfl, hb', -⟩ := leadMatch_some hlead
            -- a line ends in `c :: a`, so the blanks that start here stop before that
            have hend : '\n' ∈ c :: a := by
              rcases ha with ⟨ha, -⟩ | ha
              · cases ha
              · exact List.mem_of_getLast? ha
            by_contra hle
            have hsub : c :: a <+: b' :=
              List.prefix_of_prefix_length_le ⟨b ++ t, rfl⟩ ⟨t', hcs.symm⟩
                (by simp only [List.length_append] at hle; omega)
            have hnl := hb' _ (hsub.subset hend)
            exact absurd hnl (by decide)
          next => cases hlead
      | none =>
          have hrest : a = [] ∧ (c == '\n') = true ∨ a.getLast? = some '\n' := by
            rcases ha with ⟨ha, -⟩ | ha
            · cases ha
            · cases a with
              | nil => exact .inl ⟨rfl, by simpa using ha⟩
              | cons d a => exact .inr (by simpa [List.getLast?_cons] using ha)
          obtain ⟨q, hq, heq⟩ := ih hrest
          refine ⟨q + 1, by simpa using hq, ?_⟩
          rw [heq]
          rfl

/-! ## The first end -/

theorem lineEnds_blank {c : Char} (hc : isBlank c = true) (cs : List Char) :
    lineEnds (c :: cs) = lineEnds cs := by
  rw [lineEnds, List.dropWhile_cons_of_pos hc, lineEnds]

theorem lineEnds_left {a b : List Char} (h : lineEnds (a ++ b) = true) : lineEnds a = true := by
  induction a with
  | nil => rfl
  | cons c a ih =>
      rw [List.cons_append] at h
      cases hc : isBlank c with
      | true =>
          rw [lineEnds_blank hc] at h ⊢
          exact ih h
      | false =>
          unfold lineEnds at h ⊢
          rw [List.dropWhile_cons_of_neg (by simp [hc])] at h ⊢
          cases a with
          | nil => split at h <;> simp_all
          | cons d a => split at h <;> simp_all

theorem lineEnds_append {a : List Char} (h : lineEnds a = true) (hline : '\n' ∈ a)
    (b : List Char) : lineEnds (a ++ b) = true := by
  induction a with
  | nil => cases hline
  | cons c a ih =>
      cases hc : isBlank c with
      | true =>
          rw [List.cons_append, lineEnds_blank hc]
          rw [lineEnds_blank hc] at h
          refine ih h ?_
          rcases List.mem_cons.1 hline with rfl | hmem
          · cases hc
          · exact hmem
      | false =>
          unfold lineEnds at h ⊢
          rw [List.cons_append, List.dropWhile_cons_of_neg (by simp [hc])]
          rw [List.dropWhile_cons_of_neg (by simp [hc])] at h
          split at h <;> simp_all

theorem endsLine_iff {marker cs : List Char} :
    endsLine marker cs = true ↔ ∃ t, cs = marker ++ t ∧ lineEnds t = true := by
  rw [endsLine, Bool.and_eq_true, List.isPrefixOf_iff_prefix]
  constructor
  · rintro ⟨⟨t, rfl⟩, hline⟩
    rw [List.drop_left] at hline
    exact ⟨t, rfl, hline⟩
  · rintro ⟨t, rfl, hline⟩
    rw [List.drop_left]
    exact ⟨List.prefix_append .., hline⟩

theorem findEnd_some {marker cs : List Char} {p : Nat} (h : findEnd marker cs = some p) :
    ∃ a t, cs = a ++ (marker ++ t) ∧ a.length = p ∧ lineEnds t = true := by
  induction cs generalizing p with
  | nil =>
      unfold findEnd at h
      split at h
      next hends =>
        cases h
        obtain ⟨t, hcs, hline⟩ := endsLine_iff.1 hends
        exact ⟨[], t, hcs, rfl, hline⟩
      next => cases h
  | cons c cs ih =>
      unfold findEnd at h
      split at h
      next hends =>
        cases h
        obtain ⟨t, hcs, hline⟩ := endsLine_iff.1 hends
        exact ⟨[], t, hcs, rfl, hline⟩
      next =>
        obtain ⟨q, hq, rfl⟩ := Option.map_eq_some_iff.1 h
        obtain ⟨a, t, rfl, rfl, hline⟩ := ih hq
        exact ⟨c :: a, t, rfl, rfl, hline⟩

theorem findEnd_le {marker t : List Char} (a : List Char) (ht : lineEnds t = true) :
    ∃ q ≤ a.length, findEnd marker (a ++ (marker ++ t)) = some q := by
  have hends : endsLine marker (marker ++ t) = true := endsLine_iff.2 ⟨t, rfl, ht⟩
  induction a with
  | nil =>
      refine ⟨0, Nat.le_refl _, ?_⟩
      rw [List.nil_append]
      cases hcs : marker ++ t with
      | nil => rw [findEnd, ← hcs, if_pos hends]
      | cons c cs => rw [findEnd, ← hcs, if_pos hends]
  | cons c a ih =>
      obtain ⟨q, hq, heq⟩ := ih
      rw [List.cons_append, findEnd, heq]
      split
      · exact ⟨0, by simp, rfl⟩
      · exact ⟨q + 1, by simpa using hq, rfl⟩

/-! ## Markers at a seam -/

theorem LineTail.newline {text a m : List Char} (h : LineTail text) (heq : text = a ++ m) {c : Char}
    (hc : c ∈ m) (hblank : isBlank c = false) : '\n' ∈ m := by
  obtain ⟨front, blanks, rfl, hblanks, hfront⟩ := h
  rcases List.append_eq_append_iff.1 heq with ⟨u, rfl, hu⟩ | ⟨u, rfl, rfl⟩
  · -- all of `m` would be blank
    have hmem : c ∈ blanks := by rw [hu]; exact List.mem_append_right _ hc
    rw [hblanks c hmem] at hblank
    cases hblank
  · rcases List.mem_append.1 hc with hu | hb
    · have hne : u ≠ [] := List.ne_nil_of_mem hu
      have hlast : (a ++ u).getLast? = some '\n' := by
        refine hfront.resolve_left fun hnil => ?_
        exact hne (List.append_eq_nil_iff.1 hnil).2
      rw [List.getLast?_append_of_ne_nil _ hne] at hlast
      exact List.mem_append_left _ (List.mem_of_getLast? hlast)
    · rw [hblanks c hb] at hblank
      cases hblank

theorem IsMarker.whole {marker text a m after : List Char} (hm : IsMarker marker)
    (htail : LineTail text) (heq : text = a ++ m) (hne : m ≠ []) (h : marker <+: m ++ after) :
    marker <+: m := by
  rcases List.prefix_or_prefix_of_prefix h (List.prefix_append m after) with hwhole | hpart
  · exact hwhole
  · obtain ⟨c, cs, rfl, hc⟩ := hm.cons
    obtain ⟨d, ds, rfl⟩ := List.exists_cons_of_ne_nil hne
    obtain rfl : d = c := (List.cons_prefix_cons.1 hpart).1
    have hline := htail.newline heq (List.mem_cons_self) hc
    exact absurd rfl (hm.line _ (hpart.subset hline)).1

theorem findStart_seam {marker text after : List Char} (hm : IsMarker marker)
    (htail : LineTail text)
    (hnone : ∀ a b t, text = a ++ (b ++ t) → (∀ c ∈ b, isBlank c = true) →
      (a = [] ∨ a.getLast? = some '\n') → marker <+: t → False)
    (hafter : marker <+: after) : findStart marker true (text ++ after) = some text.length := by
  have htail' := htail
  obtain ⟨front, blanks, rfl, hblanks, hfront⟩ := htail'
  obtain ⟨q, hq, heq⟩ := @findStart_le marker front blanks after true hm hblanks
    (hfront.imp_left fun h => ⟨h, rfl⟩) hafter
  rw [← List.append_assoc] at heq
  rcases Nat.lt_or_ge q (front ++ blanks).length with hlt | hge
  · -- an earlier marker would stand in the text, as it cannot reach across the seam
    obtain ⟨a, b, t, hcs, hlength, hb, ha, ht⟩ := findStart_some heq
    rw [← List.append_assoc] at hcs
    rcases List.append_eq_append_iff.1 hcs with ⟨u, hu, -⟩ | ⟨m, hm', rfl⟩
    · rw [hu, List.length_append] at hlength
      omega
    · have hne : m ≠ [] := by
        rintro rfl
        rw [List.append_nil] at hm'
        rw [hm'] at hlt
        omega
      refine absurd (hm.whole htail hm' hne ht) fun hwhole => ?_
      exact hnone a b m (by rw [hm', List.append_assoc]) hb (ha.imp_left And.left) hwhole
  · rw [heq, Nat.le_antisymm hq hge]

theorem findEnd_seam {marker text sec after : List Char} {k : Nat} (hm : IsMarker marker)
    (htail : LineTail text)
    (hnone : ∀ a t, text = a ++ (marker ++ t) → lineEnds t = true → False)
    (hsec : findEnd marker sec = some k) (hk : k + marker.length = sec.length)
    (hafter : lineEnds after = true) :
    findEnd marker (text ++ (sec ++ after)) = some (text.length + k) := by
  obtain ⟨h, t, rfl, rfl, -⟩ := findEnd_some hsec
  simp only [List.length_append] at hk
  obtain rfl : t = [] := List.length_eq_zero_iff.1 (by omega)
  obtain ⟨q, hq, heq⟩ := @findEnd_le marker after (text ++ h) hafter
  have hwhole : (text ++ h) ++ (marker ++ after) = text ++ ((h ++ (marker ++ [])) ++ after) := by
    simp
  rw [hwhole] at heq
  rw [List.length_append] at hq
  -- an earlier end in the section would be the first one of the section alone
  have inside (u t : List Char) (hu : (h ++ (marker ++ [])) ++ after = u ++ (marker ++ t))
      (hlt : u.length < h.length) (ht : lineEnds t = true) : False := by
    rw [List.append_nil] at hu hsec
    rw [← List.append_assoc u] at hu
    rcases List.append_eq_append_iff.1 hu with ⟨v, hv, -⟩ | ⟨v, hv, rfl⟩
    · have hsum := congrArg List.length hv
      simp only [List.length_append] at hsum
      omega
    · rw [hv, List.append_assoc] at hsec
      obtain ⟨q', hq', heq'⟩ := @findEnd_le marker v u (lineEnds_left ht)
      rw [heq'] at hsec
      obtain rfl := Option.some.inj hsec
      omega
  rcases Nat.lt_or_ge q (text.length + h.length) with hlt | hge
  · exfalso
    obtain ⟨a, t, hcs, rfl, ht⟩ := findEnd_some heq
    rcases List.append_eq_append_iff.1 hcs with ⟨u, rfl, hu⟩ | ⟨m, rfl, hm'⟩
    · rw [List.length_append] at hlt
      exact inside u t hu (by omega) ht
    · by_cases hne : m = []
      · subst hne
        simp only [List.append_nil] at hlt
        exact inside [] t hm'.symm (by simp only [List.length_nil]; omega) ht
      · obtain ⟨rest, rfl⟩ := hm.whole htail rfl hne ⟨t, hm'⟩
        rw [List.append_assoc] at hm'
        rw [List.append_cancel_left hm'] at ht
        exact hnone a rest rfl (lineEnds_left ht)
  · rw [heq, Nat.le_antisymm hq hge]

/-! ## The section in the line ending of a file -/

theorem toLf_cons {c : Char} (hc : c ≠ '\r') (cs : List Char) : toLf (c :: cs) = c :: toLf cs := by
  rw [toLf]
  rintro _ rfl rfl
  exact hc rfl

theorem toLf_marker {m : List Char} (hm : ∀ c ∈ m, c ≠ '\n' ∧ c ≠ '\r') (cs : List Char) :
    toLf (m ++ cs) = m ++ toLf cs := by
  induction m with
  | nil => rfl
  | cons c m ih =>
      rw [List.cons_append, toLf_cons (hm c (.head _)).2, ih fun d hd => hm d (.tail _ hd)]
      rfl

theorem toLf_append_marker {m : List Char} (hm : ∀ c ∈ m, c ≠ '\n' ∧ c ≠ '\r') (body : List Char) :
    toLf (body ++ m) = toLf body ++ m := by
  fun_induction toLf body with
  | case1 => simpa [toLf] using toLf_marker hm []
  | case2 cs ih =>
      rw [List.cons_append, List.cons_append, toLf, ih]
      rfl
  | case3 c cs hc ih =>
      rw [List.cons_append, toLf, ih]
      · rfl
      · rintro rest rfl hrest
        cases cs with
        | nil =>
            rw [List.nil_append] at hrest
            exact (hm '\n' (by rw [hrest]; exact .head _)).1 rfl
        | cons d cs =>
            rw [List.cons_append] at hrest
            exact hc cs rfl (by rw [(List.cons.inj hrest).1])

theorem flatMap_marker {m : List Char} (hm : ∀ c ∈ m, c ≠ '\n' ∧ c ≠ '\r') (eol : List Char) :
    (m.flatMap fun c => if c = '\n' then eol else [c]) = m := by
  induction m with
  | nil => rfl
  | cons c m ih =>
      rw [List.flatMap_cons, if_neg (hm c (.head _)).1, ih fun d hd => hm d (.tail _ hd)]
      rfl

section

variable {startMarker endMarker trwSection body breaks : List Char}

/-- The section in a line ending. -/
def block (startMarker body endMarker eol : List Char) : List Char :=
  startMarker ++ (asEol body eol ++ endMarker)

theorem asEol_section (hs : IsMarker startMarker) (he : IsMarker endMarker) (eol : List Char) :
    asEol (startMarker ++ (body ++ endMarker)) eol = block startMarker body endMarker eol := by
  rw [asEol, toLf_marker hs.line, toLf_append_marker he.line, List.flatMap_append,
    List.flatMap_append, flatMap_marker hs.line, flatMap_marker he.line]
  rfl

/-- A section begins with the start marker and ends with the end marker, and line ends. -/
structure IsSection (startMarker endMarker trwSection body : List Char) : Prop where
  start : IsMarker startMarker
  stop : IsMarker endMarker
  text : ∃ breaks, trwSection = startMarker ++ (body ++ endMarker) ++ breaks ∧
    ∀ c ∈ breaks, c = '\n'

theorem IsSection.trimmed (h : IsSection startMarker endMarker trwSection body) :
    trwSection.rdropWhile (· == '\n') = startMarker ++ (body ++ endMarker) := by
  obtain ⟨breaks, rfl, hbreaks⟩ := h.text
  rw [List.rdropWhile, List.reverse_append,
    List.dropWhile_append_of_pos (by simpa using hbreaks)]
  have hlast : ∀ c ∈ (startMarker ++ (body ++ endMarker)).getLast?, c ≠ '\n' := by
    intro c hc
    rw [← List.append_assoc, List.getLast?_append_of_ne_nil _ h.stop.ne_nil] at hc
    exact (h.stop.line c (List.mem_of_getLast? hc)).1
  generalize startMarker ++ (body ++ endMarker) = text at hlast
  rw [List.dropWhile_eq_self_iff.2, List.reverse_reverse]
  intro hne
  have := hlast (text.reverse[0]) (by simp [List.getLast?_eq_getElem?])
  simpa using this

theorem IsSection.head (h : IsSection startMarker endMarker trwSection body) :
    trwSection.dropWhile (· == '\n') = trwSection := by
  obtain ⟨breaks, rfl, -⟩ := h.text
  obtain ⟨c, cs, hcs, -⟩ := h.start.cons
  have hc := (h.start.line c (by rw [hcs]; exact .head _)).1
  rw [hcs, List.cons_append, List.cons_append, List.dropWhile_cons_of_neg (by simpa using hc)]

theorem smartMerge_seam (h : IsSection startMarker endMarker trwSection body)
    {text after eol : List Char} (htail : LineTail text)
    (hstart : ∀ a b t, text = a ++ (b ++ t) → (∀ c ∈ b, isBlank c = true) →
      (a = [] ∨ a.getLast? = some '\n') → startMarker <+: t → False)
    (hend : ∀ a t, text = a ++ (endMarker ++ t) → lineEnds t = true → False)
    (hafter : lineEnds after = true)
    (hbody : findEnd endMarker (block startMarker body endMarker eol) =
      some (startMarker ++ asEol body eol).length)
    (heol : asEol body (fileEol (text ++ (block startMarker body endMarker eol ++ after))) =
      asEol body eol) :
    smartMerge startMarker endMarker trwSection
      (text ++ (block startMarker body endMarker eol ++ after)) =
      text ++ (block startMarker body endMarker eol ++ after) := by
  have hfirst := @findStart_seam startMarker text (block startMarker body endMarker eol ++ after)
    h.start htail hstart (by rw [block, List.append_assoc]; exact List.prefix_append ..)
  have hlast := findEnd_seam h.stop htail hend hbody
    (by simp only [block, List.length_append]; omega) hafter
  have hpos : 0 < startMarker.length := List.length_pos_iff.2 h.start.ne_nil
  unfold smartMerge
  rw [hfirst, hlast]
  dsimp only
  rw [if_pos (by simp only [List.length_append]; omega), List.take_left, h.trimmed,
    asEol_section h.start h.stop]
  have hsame : block startMarker body endMarker
      (fileEol (text ++ (block startMarker body endMarker eol ++ after))) =
      block startMarker body endMarker eol := by rw [block, heol, block]
  have hdrop : (text ++ (block startMarker body endMarker eol ++ after)).drop
      (text.length + (startMarker ++ asEol body eol).length + endMarker.length) = after := by
    have hlength : text.length + (startMarker ++ asEol body eol).length + endMarker.length =
        (text ++ block startMarker body endMarker eol).length := by
      simp only [block, List.length_append]
      omega
    rw [hlength, ← List.append_assoc, List.drop_left]
  rw [hsame, hdrop, List.append_assoc]

end

/-! ## Where a section goes -/

theorem fileEol_cases (text : List Char) : fileEol text = ['\n'] ∨ fileEol text = ['\r', '\n'] := by
  unfold fileEol
  split
  · exact .inr rfl
  · exact .inl rfl

theorem lineEnds_fileEol (text : List Char) : lineEnds (fileEol text) = true := by
  rcases fileEol_cases text with h | h <;> rw [h] <;> rfl

theorem fileEol_getLast (text front : List Char) :
    (front ++ fileEol text).getLast? = some '\n' := by
  rcases fileEol_cases text with h | h <;> simp [h]

theorem junction_spec (text existing : List Char) :
    (existing ++ junction existing (fileEol text)).getLast? = some '\n' ∧
      ∀ c ∈ junction existing (fileEol text), c = '\n' ∨ c = '\r' := by
  have hbreaks : ∀ c ∈ fileEol text, c = '\n' ∨ c = '\r' := by
    rcases fileEol_cases text with h | h <;> rw [h] <;> simp
  unfold junction
  split
  next hsuffix =>
    obtain ⟨front, rfl⟩ := List.isSuffixOf_iff_suffix.1 hsuffix
    refine ⟨?_, by simp⟩
    rw [List.append_nil, ← List.append_assoc]
    exact fileEol_getLast ..
  next =>
    split
    · exact ⟨fileEol_getLast .., hbreaks⟩
    · refine ⟨?_, fun c hc => (List.mem_append.1 hc).elim (hbreaks c) (hbreaks c)⟩
      rw [← List.append_assoc]
      exact fileEol_getLast ..

theorem IsMarker.before_breaks {m l breaks : List Char} (hm : IsMarker m)
    (hbreaks : ∀ c ∈ breaks, c = '\n' ∨ c = '\r') (h : m <+: l ++ breaks) : m <+: l := by
  rcases List.prefix_or_prefix_of_prefix h (List.prefix_append l breaks) with hwhole | ⟨v, rfl⟩
  · exact hwhole
  · have hv := (List.prefix_append_right_inj l).1 h
    cases v with
    | nil => rw [List.append_nil]
    | cons c v =>
        have hline := hm.line c (by simp)
        exact ((hbreaks c (hv.subset (.head _))).elim hline.1 hline.2).elim

theorem IsMarker.not_breaks {m breaks : List Char} (hm : IsMarker m)
    (hbreaks : ∀ c ∈ breaks, c = '\n' ∨ c = '\r') (h : m ⊆ breaks) : False := by
  obtain ⟨c, cs, rfl, -⟩ := hm.cons
  have hline := hm.line c (.head _)
  exact (hbreaks c (h (.head _))).elim hline.1 hline.2

section

variable {startMarker endMarker trwSection body existing : List Char}

/-- The text has a section to replace. -/
def Matched (startMarker endMarker existing : List Char) (first last : Nat) : Prop :=
  findStart startMarker true existing = some first ∧ findEnd endMarker existing = some last ∧
    first < last

theorem smartMerge_matched {first last : Nat}
    (hmatched : Matched startMarker endMarker existing first last) :
    smartMerge startMarker endMarker trwSection existing =
      existing.take first ++ asEol (trwSection.rdropWhile (· == '\n')) (fileEol existing) ++
        existing.drop (last + endMarker.length) := by
  unfold smartMerge
  rw [hmatched.1, hmatched.2.1]
  dsimp only
  rw [if_pos hmatched.2.2]

theorem smartMerge_unmatched
    (h : ¬ ∃ first last, Matched startMarker endMarker existing first last) :
    smartMerge startMarker endMarker trwSection existing = appendBlock existing trwSection := by
  unfold smartMerge
  split
  next first last hfirst hlast =>
    rw [if_neg fun hlt => h ⟨first, last, hfirst, hlast, hlt⟩]
  next => rfl

theorem IsSection.blockText (h : IsSection startMarker endMarker trwSection body)
    (eol : List Char) :
    blockText trwSection eol = block startMarker body endMarker eol ++ eol := by
  rw [Markers.blockText, h.head, h.trimmed, asEol_section h.start h.stop]

theorem smartMerge_keeps (startMarker endMarker trwSection existing : List Char) :
    (∃ first last written, Matched startMarker endMarker existing first last ∧
      smartMerge startMarker endMarker trwSection existing =
        existing.take first ++ written ++ existing.drop (last + endMarker.length)) ∨
    Text.stripChars existing = [] ∨
    ∃ written, smartMerge startMarker endMarker trwSection existing = existing ++ written := by
  by_cases hmatched : ∃ first last, Matched startMarker endMarker existing first last
  · obtain ⟨first, last, h⟩ := hmatched
    exact .inl ⟨first, last, _, h, smartMerge_matched h⟩
  · refine .inr ?_
    rw [smartMerge_unmatched hmatched, appendBlock]
    by_cases hblank : Text.stripChars existing = []
    · exact .inl hblank
    · refine .inr ⟨junction existing (fileEol existing) ++
        blockText trwSection (fileEol existing), ?_⟩
      rw [if_neg hblank, List.append_assoc]

theorem LineTail.of_newline {text : List Char} (h : text.getLast? = some '\n') : LineTail text :=
  ⟨text, [], by simp, by simp, .inr h⟩

theorem LineTail.nil : LineTail [] := ⟨[], [], rfl, by simp, .inl rfl⟩

theorem smartMerge_again (h : IsSection startMarker endMarker trwSection body)
    (hplace : (∃ first last, Matched startMarker endMarker existing first last) ∨
      Text.stripChars existing = [] ∨
      (findStart startMarker true existing = none ∧ findEnd endMarker existing = none))
    (hbody : findEnd endMarker (block startMarker body endMarker (fileEol existing)) =
      some (startMarker ++ asEol body (fileEol existing)).length)
    (heol : asEol body (fileEol (smartMerge startMarker endMarker trwSection existing)) =
      asEol body (fileEol existing)) :
    smartMerge startMarker endMarker trwSection
      (smartMerge startMarker endMarker trwSection existing) =
      smartMerge startMarker endMarker trwSection existing := by
  by_cases hmatched : ∃ first last, Matched startMarker endMarker existing first last
  · -- the new section stands where the old one did, between the same two texts
    obtain ⟨first, last, hm⟩ := hmatched
    obtain ⟨hfirst, hlast, hlt⟩ := hm
    rw [smartMerge_matched ⟨hfirst, hlast, hlt⟩, h.trimmed, asEol_section h.start h.stop,
      List.append_assoc] at heol ⊢
    obtain ⟨a, b, t, hcs, hlength, hb, ha, ht⟩ := findStart_some hfirst
    obtain ⟨a', t', hcs', rfl, ht'⟩ := findEnd_some hlast
    have htake : existing.take first = a ++ b := by
      rw [hcs, ← hlength, ← List.append_assoc, List.take_left]
    have htext : existing = (a ++ b) ++ t := by rw [hcs, List.append_assoc]
    have hdrop : existing.drop (a'.length + endMarker.length) = t' := by
      rw [hcs', ← List.append_assoc, ← List.length_append, List.drop_left]
    rw [htake, hdrop] at heol ⊢
    have htail : LineTail (a ++ b) := ⟨a, b, rfl, hb, ha.imp_left And.left⟩
    refine smartMerge_seam h htail ?_ ?_ ht' hbody heol
    · intro a₂ b₂ t₂ heq hb₂ ha₂ ht₂
      obtain ⟨q, hq, hfound⟩ := @findStart_le startMarker a₂ b₂ (t₂ ++ t) true h.start hb₂
        (ha₂.imp_left fun h => ⟨h, rfl⟩) (ht₂.trans (List.prefix_append ..))
      have hsame : a₂ ++ (b₂ ++ (t₂ ++ t)) = existing := by rw [htext, heq]; simp
      rw [hsame, hfirst] at hfound
      obtain rfl := Option.some.inj hfound
      have hpos : 0 < t₂.length :=
        Nat.lt_of_lt_of_le (List.length_pos_iff.2 h.start.ne_nil) ht₂.length_le
      have hsum := congrArg List.length heq
      simp only [List.length_append] at hsum hq hlength
      omega
    · intro a₂ t₂ heq ht₂
      obtain ⟨c, cs, hc, hblank⟩ := h.stop.cons
      have hline := htail.newline heq (c := c) (by rw [hc]; simp) hblank
      have hline' : '\n' ∈ t₂ := (List.mem_append.1 hline).resolve_left fun hin =>
        (h.stop.line _ hin).1 rfl
      obtain ⟨q, hq, hfound⟩ := @findEnd_le endMarker (t₂ ++ t) a₂ (lineEnds_append ht₂ hline' t)
      have hsame : a₂ ++ (endMarker ++ (t₂ ++ t)) = existing := by rw [htext, heq]; simp
      rw [hsame, hlast] at hfound
      obtain rfl := Option.some.inj hfound
      have hsum := congrArg List.length heq
      simp only [List.length_append] at hsum hlength
      omega
  · rw [smartMerge_unmatched hmatched] at heol ⊢
    unfold appendBlock at heol ⊢
    dsimp only at heol ⊢
    have hends := lineEnds_fileEol existing
    by_cases hblank : Text.stripChars existing = []
    · -- the section is the whole text
      rw [if_pos hblank, h.blockText] at heol ⊢
      refine smartMerge_seam h LineTail.nil ?_ ?_ hends hbody heol
      · intro a b t heq _ _ ht
        have hnil : t = [] := by simp_all
        rw [hnil] at ht
        exact h.start.ne_nil (List.prefix_nil.1 ht)
      · intro a t heq _
        have hnil : endMarker = [] := by simp_all
        exact h.stop.ne_nil hnil
    · -- the section is appended, and its seam is the end of a line
      obtain ⟨hstart, hend⟩ := (hplace.resolve_left hmatched).resolve_left hblank
      rw [if_neg hblank, h.blockText] at heol ⊢
      obtain ⟨hlast, hbreaks⟩ := junction_spec existing existing
      refine smartMerge_seam h (LineTail.of_newline hlast) ?_ ?_ hends hbody heol
      · intro a b t heq hb ha ht
        rw [← List.append_assoc] at heq
        rcases List.append_eq_append_iff.1 heq with ⟨u, -, hu⟩ | ⟨m, hm, rfl⟩
        · refine h.start.not_breaks hbreaks fun c hc => ?_
          rw [hu]
          exact List.mem_append_right _ (ht.subset hc)
        · obtain ⟨q, -, hfound⟩ := @findStart_le startMarker a b m true h.start hb
            (ha.imp_left fun h => ⟨h, rfl⟩) (h.start.before_breaks hbreaks ht)
          rw [← List.append_assoc, ← hm, hstart] at hfound
          cases hfound
      · intro a t heq ht
        rcases List.append_eq_append_iff.1 heq with ⟨u, -, hu⟩ | ⟨m, hm, hm'⟩
        · refine h.stop.not_breaks hbreaks fun c hc => ?_
          rw [hu]
          exact List.mem_append_right _ (List.mem_append_left _ hc)
        · obtain ⟨rest, rfl⟩ := h.stop.before_breaks hbreaks ⟨t, hm'⟩
          rw [List.append_assoc] at hm'
          rw [List.append_cancel_left hm'] at ht
          obtain ⟨q, -, hfound⟩ := @findEnd_le endMarker rest a (lineEnds_left ht)
          rw [← hm, hend] at hfound
          cases hfound

end

/-- A merge keeps what stands outside the old section, and where the markers of the text are in
order, or there are none, a second merge of the same section changes nothing. -/
theorem merge_marker_section {startMarker endMarker trwSection body : List Char}
    (h : IsSection startMarker endMarker trwSection body) (existing : List Char) :
    ((∃ first last written, Matched startMarker endMarker existing first last ∧
        smartMerge startMarker endMarker trwSection existing =
          existing.take first ++ written ++ existing.drop (last + endMarker.length)) ∨
      Text.stripChars existing = [] ∨
      ∃ written, smartMerge startMarker endMarker trwSection existing = existing ++ written) ∧
    (((∃ first last, Matched startMarker endMarker existing first last) ∨
        Text.stripChars existing = [] ∨
        (findStart startMarker true existing = none ∧ findEnd endMarker existing = none)) →
      findEnd endMarker (block startMarker body endMarker (fileEol existing)) =
        some (startMarker ++ asEol body (fileEol existing)).length →
      asEol body (fileEol (smartMerge startMarker endMarker trwSection existing)) =
        asEol body (fileEol existing) →
      smartMerge startMarker endMarker trwSection
        (smartMerge startMarker endMarker trwSection existing) =
        smartMerge startMarker endMarker trwSection existing) :=
  ⟨smartMerge_keeps .., fun hplace hbody heol => smartMerge_again h hplace hbody heol⟩

theorem sample_section :
    IsSection ['<', 's', '>'] ['<', 'e', '>'] ['<', 's', '>', '\n', 'x', '\n', '<', 'e', '>', '\n']
      ['\n', 'x', '\n'] where
  start := ⟨by simp, by simp, by simp [isBlank]⟩
  stop := ⟨by simp, by simp, by simp [isBlank]⟩
  text := ⟨['\n'], rfl, by simp⟩

/-- A section between two lines of the user, with the line ends of Windows. -/
theorem merge_marker_section_sample :
    smartMerge ['<', 's', '>'] ['<', 'e', '>']
        ['<', 's', '>', '\n', 'x', '\n', '<', 'e', '>', '\n']
        (smartMerge ['<', 's', '>'] ['<', 'e', '>']
          ['<', 's', '>', '\n', 'x', '\n', '<', 'e', '>', '\n']
          ['a', '\r', '\n', '<', 's', '>', '\r', '\n', '<', 'e', '>', '\r', '\n', 'b']) =
      smartMerge ['<', 's', '>'] ['<', 'e', '>']
        ['<', 's', '>', '\n', 'x', '\n', '<', 'e', '>', '\n']
        ['a', '\r', '\n', '<', 's', '>', '\r', '\n', '<', 'e', '>', '\r', '\n', 'b'] :=
  (merge_marker_section sample_section
      ['a', '\r', '\n', '<', 's', '>', '\r', '\n', '<', 'e', '>', '\r', '\n', 'b']).2
    (.inl ⟨3, 8, by decide, by decide, by decide⟩) (by decide) (by decide)

/-- Below a lone end marker every merge appends the section once more; a text of white space is
replaced. -/
theorem lone_end_appends_again :
    smartMerge ['<', 's', '>'] ['<', 'e', '>']
        ['<', 's', '>', '\n', 'x', '\n', '<', 'e', '>', '\n']
        (smartMerge ['<', 's', '>'] ['<', 'e', '>']
          ['<', 's', '>', '\n', 'x', '\n', '<', 'e', '>', '\n'] ['<', 'e', '>', '\n']) ≠
      smartMerge ['<', 's', '>'] ['<', 'e', '>']
        ['<', 's', '>', '\n', 'x', '\n', '<', 'e', '>', '\n'] ['<', 'e', '>', '\n'] ∧
    smartMerge ['<', 's', '>'] ['<', 'e', '>']
        ['<', 's', '>', '\n', 'x', '\n', '<', 'e', '>', '\n'] [' ', '\n'] =
      ['<', 's', '>', '\n', 'x', '\n', '<', 'e', '>', '\n'] := by
  decide

end TrwMcp.Bootstrap.Markers
