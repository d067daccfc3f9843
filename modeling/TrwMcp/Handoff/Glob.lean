import Mathlib.Data.List.Forall2
import Mathlib.Data.List.Infix
import TrwMcp.Lib.Text

/-!
# Globs of `objective.paths`

A segment is matched by a walk with one point to go back to, behind the last `*` it has met. The
walk looks first whether the two characters are the same, so a `*` that comes to a `*` of the text
stands for that one character and is no point to go back to.
-/

namespace TrwMcp.Handoff.Glob

open Lib.Text

/-! ## The walk -/

/-- The loop of `_segment`: what is left of the pattern and of the text, and with a star the pattern
behind it and the characters between `mark` and `t`. -/
def walk (pattern text : List Char) (back : Option (List Char × List Char)) : Bool :=
  match text with
  | [] => pattern.all (· == '*')
  | c :: text =>
      if pattern.head? = some '?' ∨ pattern.head? = some c then
        walk pattern.tail text (back.map fun m => (m.1, m.2 ++ [c]))
      else if _hstar : pattern.head? = some '*' then
        walk pattern.tail (c :: text) (some (pattern.tail, []))
      else
        match back with
        | some (star, since) => walk star (since ++ c :: text).tail (some (star, []))
        | none => false
termination_by
  ((back.map fun m => m.2.length + text.length).getD (text.length + 1), text.length, pattern.length)
decreasing_by
  · cases back with
    | none =>
        left
        simp
    | some m =>
        have hsum : (m.2 ++ [c]).length + text.length = m.2.length + (c :: text).length := by
          simp
          omega
        rw [Prod.lex_def]
        right
        exact ⟨hsum, Prod.Lex.left _ _ (by simp)⟩
  · have hshorter : pattern.tail.length < pattern.length := by
      cases pattern with
      | nil => cases _hstar
      | cons p ps => simp
    cases back with
    | none =>
        left
        simp
    | some m =>
        by_cases hnil : m.2.length = 0
        · rw [Prod.lex_def]
          right
          refine ⟨by simp [hnil], ?_⟩
          rw [Prod.lex_def]
          exact .inr ⟨rfl, hshorter⟩
        · left
          simp
          omega
  · left
    simp

/-- `_segment` -/
def segment (pattern text : List Char) : Bool := walk pattern text none

/-- `_full` -/
@[grind =] def full : List (List Char) → List (List Char) → Bool
  | [], path => path.isEmpty
  | seg :: segs, path =>
      if seg = ['*', '*'] then path.tails.any (full segs)
      else
        match path with
        | [] => false
        | part :: parts => segment seg part && full segs parts

/-- `any(_WILD & set(pattern))` -/
def isWild (pattern : List Char) : Bool := pattern.any fun c => c = '*' || c = '?'

/-- `pattern.rstrip("/").split("/")` -/
def parts (text : List Char) : List (List Char) := (rstripChars text).splitOn '/'

/-- `covers` -/
def covers (pattern path : List Char) : Bool :=
  if !isWild pattern then (parts path).take (parts pattern).length = parts pattern
  else full (parts pattern) (parts path)

/-! ## The language -/

/-- The text can be split along the pattern: a `*` stands for a run, a `?` for a character, and
every other character for itself. -/
inductive Splits : List Char → List Char → Prop
  | nil : Splits [] []
  | star {ps rest : List Char} (run : List Char) :
      Splits ps rest → Splits ('*' :: ps) (run ++ rest)
  | one {ps rest : List Char} (c : Char) : Splits ps rest → Splits ('?' :: ps) (c :: rest)
  | lit {ps rest : List Char} {c : Char} :
      c ≠ '*' → c ≠ '?' → Splits ps rest → Splits (c :: ps) (c :: rest)

/-- A split in which a `*` that comes to a `*` of the text stands for that character alone. -/
inductive Firm : List Char → List Char → Prop
  | nil : Firm [] []
  | star {ps rest : List Char} (run : List Char) :
      (run ++ rest).head? ≠ some '*' → Firm ps rest → Firm ('*' :: ps) (run ++ rest)
  | same {ps rest : List Char} : Firm ps rest → Firm ('*' :: ps) ('*' :: rest)
  | one {ps rest : List Char} (c : Char) : Firm ps rest → Firm ('?' :: ps) (c :: rest)
  | lit {ps rest : List Char} {c : Char} :
      c ≠ '*' → c ≠ '?' → Firm ps rest → Firm (c :: ps) (c :: rest)

theorem Firm.splits {pattern text : List Char} (h : Firm pattern text) : Splits pattern text := by
  induction h with
  | nil => exact .nil
  | star run _ _ ih => exact .star run ih
  | @same ps rest _ ih => exact .star ['*'] ih
  | one c _ ih => exact .one c ih
  | lit hstar hone _ ih => exact .lit hstar hone ih

theorem Splits.firm {pattern text : List Char} (h : Splits pattern text) (htext : '*' ∉ text) :
    Firm pattern text := by
  induction h with
  | nil => exact .nil
  | @star ps rest run _ ih =>
      refine .star run (fun hhead => htext (List.mem_of_mem_head? hhead)) (ih fun hmem => ?_)
      exact htext (List.mem_append_right _ hmem)
  | one c _ ih => exact .one c (ih fun hmem => htext (List.mem_cons_of_mem _ hmem))
  | lit hstar hone _ ih =>
      exact .lit hstar hone (ih fun hmem => htext (List.mem_cons_of_mem _ hmem))

theorem firm_nil {pattern : List Char} : Firm pattern [] ↔ pattern.all (· == '*') = true := by
  constructor
  · intro h
    generalize htext : ([] : List Char) = text at h
    induction h with
    | nil => rfl
    | star run _ _ ih =>
        obtain ⟨-, rfl⟩ := List.append_eq_nil_iff.mp htext.symm
        simpa using ih rfl
    | same | one | lit => cases htext
  · intro h
    induction pattern with
    | nil => exact .nil
    | cons p ps ih =>
        rw [List.all_cons, Bool.and_eq_true, beq_iff_eq] at h
        obtain ⟨rfl, hps⟩ := h
        exact .star [] nofun (ih hps)

theorem firm_star {ps text : List Char} (hhead : text.head? ≠ some '*') :
    Firm ('*' :: ps) text ↔ ∃ rest, rest <:+ text ∧ Firm ps rest := by
  constructor
  · intro h
    cases h with
    | star run _ h => exact ⟨_, List.suffix_append _ _, h⟩
    | same h => exact absurd rfl hhead
    | lit hstar => exact absurd rfl hstar
  · rintro ⟨rest, ⟨run, rfl⟩, h⟩
    exact .star run hhead h

theorem firm_same {ps text : List Char} : Firm ('*' :: ps) ('*' :: text) ↔ Firm ps text := by
  constructor
  · intro h
    generalize htext : '*' :: text = whole at h
    cases h with
    | star run hhead _ =>
        rw [← htext] at hhead
        exact absurd rfl hhead
    | same h =>
        obtain ⟨-, rfl⟩ := List.cons.inj htext
        exact h
    | lit hstar => exact absurd rfl hstar
  · exact .same

theorem firm_one {ps text : List Char} {c : Char} :
    Firm ('?' :: ps) (c :: text) ↔ Firm ps text := by
  constructor
  · intro h
    cases h with
    | one _ h => exact h
    | lit _ hone => exact absurd rfl hone
  · exact .one c

/-- A character of the pattern that the walk takes with a character of the text. -/
def Takes (p c : Char) : Prop := p = '?' ∨ p = c

theorem firm_takes {ps text : List Char} {p c : Char} (h : Takes p c) :
    Firm (p :: ps) (c :: text) ↔ Firm ps text := by
  rcases h with rfl | rfl
  · exact firm_one
  · by_cases hstar : p = '*'
    · subst hstar
      exact firm_same
    · by_cases hone : p = '?'
      · subst hone
        exact firm_one
      · refine ⟨fun h => ?_, .lit hstar hone⟩
        generalize htext : p :: text = whole at h
        cases h with
        | star | same => exact absurd rfl hstar
        | one => exact absurd rfl hone
        | lit _ _ h =>
            obtain ⟨-, rfl⟩ := List.cons.inj htext
            exact h

theorem not_firm {pattern text : List Char} {c : Char} (hone : pattern.head? ≠ some '?')
    (hsame : pattern.head? ≠ some c) (hstar : pattern.head? ≠ some '*') :
    ¬ Firm pattern (c :: text) := by
  intro h
  generalize htext : c :: text = whole at h
  cases h with
  | nil => cases htext
  | star | same => exact hstar rfl
  | one => exact hone rfl
  | lit =>
      obtain ⟨rfl, -⟩ := List.cons.inj htext
      exact hsame rfl

/-- The first character of a pattern, on any suffix of a text whose first character it takes,
leaves a suffix of what follows. -/
theorem firm_step {p c : Char} {ps text rest : List Char} (htakes : Takes p c)
    (hrest : rest <:+ c :: text) (h : Firm (p :: ps) rest) :
    ∃ tail, tail <:+ text ∧ Firm ps tail := by
  rcases List.suffix_cons_iff.mp hrest with rfl | hsuffix
  · exact ⟨text, List.suffix_refl _, (firm_takes htakes).mp h⟩
  · cases h with
    | star run _ h => exact ⟨_, (List.suffix_append _ _).trans hsuffix, h⟩
    | same h => exact ⟨_, (List.suffix_cons _ _).trans hsuffix, h⟩
    | one _ h => exact ⟨_, (List.suffix_cons _ _).trans hsuffix, h⟩
    | lit _ _ h => exact ⟨_, (List.suffix_cons _ _).trans hsuffix, h⟩

theorem firm_since {taken since pattern text rest : List Char}
    (htaken : List.Forall₂ Takes taken since) (hrest : rest <:+ since ++ text)
    (h : Firm (taken ++ pattern) rest) : ∃ tail, tail <:+ text ∧ Firm pattern tail := by
  induction htaken generalizing rest with
  | nil => exact ⟨rest, hrest, h⟩
  | cons htakes _ ih =>
      obtain ⟨tail, htail, hfirm⟩ := firm_step htakes hrest h
      exact ih htail hfirm

/-! ## What the walk accepts -/

/-- The point to go back to: what has been taken since is what the pattern has lost. -/
def Marked (pattern : List Char) (back : Option (List Char × List Char)) : Prop :=
  ∀ star since, back = some (star, since) →
    ∃ taken, star = taken ++ pattern ∧ List.Forall₂ Takes taken since

/-- The pattern behind the star accepts some later suffix. -/
def Later (text : List Char) (back : Option (List Char × List Char)) : Prop :=
  ∃ star since rest, back = some (star, since) ∧ rest <:+ (since ++ text).tail ∧ Firm star rest

theorem later_star {ps text : List Char} {back : Option (List Char × List Char)}
    (hmarked : Marked ('*' :: ps) back) (hhead : text.head? ≠ some '*')
    (hlater : Later text back) : Firm ('*' :: ps) text := by
  obtain ⟨star, since, rest, hback, hrest, hfirm⟩ := hlater
  obtain ⟨taken, rfl, htaken⟩ := hmarked star since hback
  obtain ⟨tail, htail, htailFirm⟩ := firm_since htaken (hrest.trans (List.tail_suffix _)) hfirm
  refine (firm_star hhead).mpr ?_
  cases htailFirm with
  | star run _ h => exact ⟨_, (List.suffix_append _ _).trans htail, h⟩
  | same h => exact ⟨_, (List.suffix_cons _ _).trans htail, h⟩
  | lit hstar => exact absurd rfl hstar

theorem walk_iff {pattern text : List Char} {back : Option (List Char × List Char)}
    (hmarked : Marked pattern back) :
    walk pattern text back = true ↔ Firm pattern text ∨ Later text back := by
  induction pattern, text, back using walk.induct with
  | case1 pattern back =>
      rw [walk, ← firm_nil]
      refine ⟨.inl, fun h => h.elim (fun h => h) ?_⟩
      rintro ⟨star, since, rest, hback, hrest, hfirm⟩
      obtain ⟨taken, rfl, htaken⟩ := hmarked star since hback
      obtain ⟨tail, htail, htailFirm⟩ :=
        firm_since htaken (hrest.trans (List.tail_suffix _)) hfirm
      rwa [List.suffix_nil.mp htail] at htailFirm
  | case2 pattern back c text hhead ih =>
      cases pattern with
      | nil => simp at hhead
      | cons p ps =>
          have htakes : Takes p c := by simpa [Takes] using hhead
          have hnext : Marked ps (back.map fun m => (m.1, m.2 ++ [c])) := by
            rintro star since hback
            obtain ⟨⟨star', since'⟩, hback', heq⟩ := Option.map_eq_some_iff.mp hback
            obtain ⟨rfl, rfl⟩ := Prod.mk.inj heq
            obtain ⟨taken, rfl, htaken⟩ := hmarked star' since' hback'
            exact ⟨taken ++ [p], by simp, List.rel_append htaken (.cons htakes .nil)⟩
          rw [walk.eq_def]
          dsimp only
          rw [if_pos hhead, ih hnext, List.tail_cons, firm_takes htakes]
          refine or_congr_right ⟨?_, ?_⟩
          · rintro ⟨star, since, rest, hback, hrest, hfirm⟩
            obtain ⟨⟨star', since'⟩, hback', heq⟩ := Option.map_eq_some_iff.mp hback
            obtain ⟨rfl, rfl⟩ := Prod.mk.inj heq
            exact ⟨star', since', rest, hback', by simpa using hrest, hfirm⟩
          · rintro ⟨star, since, rest, hback, hrest, hfirm⟩
            exact ⟨star, since ++ [c], rest, by rw [hback]; rfl, by simpa using hrest, hfirm⟩
  | case3 pattern back c text hhead hstar ih =>
      cases pattern with
      | nil => simp at hstar
      | cons p ps =>
          obtain rfl : p = '*' := by simpa using hstar
          have hdiffers : (c :: text).head? ≠ some '*' := by
            rw [List.head?_cons, ne_eq, Option.some.injEq]
            rintro rfl
            exact hhead (.inr rfl)
          have hnext : Marked ps (some (ps, [])) := by
            rintro star since ⟨⟩
            exact ⟨[], rfl, .nil⟩
          rw [walk.eq_def]
          dsimp only
          rw [if_neg hhead, dif_pos hstar, ih hnext, List.tail_cons]
          have hreach : Firm ps (c :: text) ∨ Later (c :: text) (some (ps, [])) ↔
              Firm ('*' :: ps) (c :: text) := by
            rw [firm_star hdiffers]
            constructor
            · rintro (hfirm | ⟨star, since, rest, hback, hrest, hfirm⟩)
              · exact ⟨_, List.suffix_refl _, hfirm⟩
              · obtain ⟨rfl, rfl⟩ := Prod.mk.inj (Option.some.inj hback)
                exact ⟨rest, hrest.trans (List.tail_suffix _), hfirm⟩
            · rintro ⟨rest, hrest, hfirm⟩
              rcases List.suffix_cons_iff.mp hrest with rfl | hsuffix
              · exact .inl hfirm
              · exact .inr ⟨ps, [], rest, rfl, hsuffix, hfirm⟩
          refine hreach.trans ⟨.inl, fun h => h.elim (fun h => h) ?_⟩
          exact later_star hmarked hdiffers
  | case4 pattern c text hhead hstar star since ih =>
      have hnext : Marked star (some (star, [])) := by
        rintro star' since' ⟨⟩
        exact ⟨[], rfl, .nil⟩
      have hnone : ¬ Firm pattern (c :: text) :=
        not_firm (fun h => hhead (.inl h)) (fun h => hhead (.inr h)) hstar
      rw [walk, if_neg hhead, dif_neg hstar, ih hnext]
      constructor
      · rintro (hfirm | ⟨star', since', rest, hback, hrest, hfirm⟩)
        · exact .inr ⟨star, since, _, rfl, List.suffix_refl _, hfirm⟩
        · obtain ⟨rfl, rfl⟩ := Prod.mk.inj (Option.some.inj hback)
          exact .inr ⟨star, since, rest, rfl, hrest.trans (List.tail_suffix _), hfirm⟩
      · rintro (hfirm | ⟨star', since', rest, hback, hrest, hfirm⟩)
        · exact absurd hfirm hnone
        · obtain ⟨rfl, rfl⟩ := Prod.mk.inj (Option.some.inj hback)
          generalize (since ++ c :: text).tail = after at hrest ⊢
          cases after with
          | nil =>
              rw [List.suffix_nil.mp hrest] at hfirm
              exact .inl hfirm
          | cons d after =>
              rcases List.suffix_cons_iff.mp hrest with rfl | hsuffix
              · exact .inl hfirm
              · exact .inr ⟨star, [], rest, rfl, hsuffix, hfirm⟩
  | case5 pattern c text hhead hstar =>
      rw [walk, if_neg hhead, dif_neg hstar]
      refine iff_of_false (by simp) ?_
      rintro (hfirm | ⟨star, since, rest, hback, -⟩)
      · exact not_firm (fun h => hhead (.inl h)) (fun h => hhead (.inr h)) hstar hfirm
      · cases hback

theorem segment_iff {pattern text : List Char} :
    segment pattern text = true ↔ Firm pattern text := by
  rw [segment, walk_iff (by rintro _ _ ⟨⟩)]
  refine ⟨fun h => h.elim (fun h => h) ?_, .inl⟩
  rintro ⟨star, since, rest, hback, -⟩
  cases hback

/-! ## Paths -/

/-- The segments match one by one, and a `**` stands for any number of them. -/
inductive Segments (matched : List Char → List Char → Prop) :
    List (List Char) → List (List Char) → Prop
  | nil : Segments matched [] []
  | deep {segs rest : List (List Char)} (run : List (List Char)) :
      Segments matched segs rest → Segments matched (['*', '*'] :: segs) (run ++ rest)
  | one {seg part : List Char} {segs rest : List (List Char)} :
      seg ≠ ['*', '*'] → matched seg part → Segments matched segs rest →
        Segments matched (seg :: segs) (part :: rest)

theorem Segments.mono {p q : List Char → List Char → Prop} (hpq : ∀ a b, p a b → q a b)
    {segs path : List (List Char)} (h : Segments p segs path) : Segments q segs path := by
  induction h with
  | nil => exact .nil
  | deep run _ ih => exact .deep run ih
  | one hne hmatched _ ih => exact .one hne (hpq _ _ hmatched) ih

theorem full_iff {segs path : List (List Char)} :
    full segs path = true ↔ Segments Firm segs path := by
  induction segs generalizing path with
  | nil =>
      rw [full, List.isEmpty_iff]
      constructor
      · rintro rfl
        exact .nil
      · intro h
        cases h
        rfl
  | cons seg segs ih =>
      rw [full.eq_def]
      dsimp only
      split
      · next hdeep =>
          subst hdeep
          rw [List.any_eq_true]
          constructor
          · rintro ⟨rest, hrest, hfull⟩
            obtain ⟨run, rfl⟩ := (List.mem_tails ..).mp hrest
            exact .deep run (ih.mp hfull)
          · intro h
            cases h with
            | deep run h => exact ⟨_, (List.mem_tails ..).mpr (List.suffix_append _ _), ih.mpr h⟩
            | one hne => exact absurd rfl hne
      · next hdeep =>
          cases path with
          | nil =>
              refine iff_of_false (by simp) fun h => ?_
              generalize hnil : ([] : List (List Char)) = path at h
              cases h with
              | deep => exact hdeep rfl
              | one => cases hnil
          | cons part path =>
              dsimp only
              rw [Bool.and_eq_true, segment_iff, ih]
              constructor
              · rintro ⟨hmatched, hrest⟩
                exact .one hdeep hmatched hrest
              · intro h
                generalize hpath : part :: path = whole at h
                cases h with
                | deep => exact absurd rfl hdeep
                | one _ hmatched hrest =>
                    obtain ⟨rfl, rfl⟩ := List.cons.inj hpath
                    exact ⟨hmatched, hrest⟩

theorem covers_wild {pattern path : List Char} (h : isWild pattern = true) :
    covers pattern path = true ↔ Segments Firm (parts pattern) (parts path) := by
  rw [covers, h]
  exact full_iff

theorem intercalate_append {sep : List Char} {xs ys : List (List Char)} (hxs : xs ≠ [])
    (hys : ys ≠ []) :
    sep.intercalate (xs ++ ys) = sep.intercalate xs ++ sep ++ sep.intercalate ys := by
  induction xs with
  | nil => exact absurd rfl hxs
  | cons x xs ih =>
      cases xs with
      | nil =>
          obtain ⟨y, ys, rfl⟩ := List.exists_cons_of_ne_nil hys
          simp [List.intercalate_cons_cons]
      | cons x' xs =>
          rw [List.cons_append, List.cons_append, List.intercalate_cons_cons, ← List.cons_append,
            ih (List.cons_ne_nil _ _), List.intercalate_cons_cons]
          simp [List.append_assoc]

theorem splitOn_prefix {a b : List Char} :
    a.splitOn '/' <+: b.splitOn '/' ↔ b = a ∨ a ++ ['/'] <+: b := by
  constructor
  · rintro ⟨rest, hrest⟩
    have hb : b = ['/'].intercalate (a.splitOn '/' ++ rest) := by
      rw [hrest, List.intercalate_splitOn]
    by_cases hnil : rest = []
    · left
      rw [hb, hnil, List.append_nil, List.intercalate_splitOn]
    · right
      rw [hb, intercalate_append (List.splitOn_ne_nil _ _) hnil, List.intercalate_splitOn]
      exact List.prefix_append _ _
  · rintro (rfl | ⟨rest, rfl⟩)
    · exact List.prefix_refl _
    · rw [List.append_assoc, List.singleton_append, List.splitOn_append_cons_self]
      exact List.prefix_append _ _

theorem covers_literal {pattern path : List Char} (h : isWild pattern = false) :
    covers pattern path = true ↔ rstripChars path = rstripChars pattern ∨
      rstripChars pattern ++ ['/'] <+: rstripChars path := by
  rw [covers, h, ← splitOn_prefix]
  change decide (_ = parts pattern) = true ↔ parts pattern <+: parts path
  rw [decide_eq_true_eq, List.prefix_iff_eq_take, eq_comm]

/-- The matcher is the documented language exactly where a text that can be split can be split
firmly. -/
theorem glob_language (pattern path : List Char) :
    ((segment pattern path = true ↔ Splits pattern path) ↔
      (Splits pattern path → Firm pattern path)) ∧
    (isWild pattern = true →
      ((covers pattern path = true ↔ Segments Splits (parts pattern) (parts path)) ↔
        (Segments Splits (parts pattern) (parts path) →
          Segments Firm (parts pattern) (parts path)))) ∧
    (isWild pattern = false →
      (covers pattern path = true ↔ rstripChars path = rstripChars pattern ∨
        rstripChars pattern ++ ['/'] <+: rstripChars path)) ∧
    ('*' ∉ path → Splits pattern path → Firm pattern path) := by
  refine ⟨?_, fun hwild => ?_, covers_literal, fun htext h => h.firm htext⟩
  · rw [segment_iff]
    exact ⟨fun h => h.mpr, fun h => ⟨Firm.splits, h⟩⟩
  · rw [covers_wild hwild]
    exact ⟨fun h => h.mpr, fun h => ⟨Segments.mono fun _ _ => Firm.splits, h⟩⟩

/-- A `*` before a `*` of the text that stands for more. -/
theorem glob_misses :
    segment ['*', 'a'] ['*', 'x', 'a'] = false ∧ Splits ['*', 'a'] ['*', 'x', 'a'] ∧
      covers "docs/*a".toList "docs/*xa".toList = false := by
  have hpattern : parts "docs/*a".toList = [['d', 'o', 'c', 's'], ['*', 'a']] := by decide
  have hpath : parts "docs/*xa".toList = [['d', 'o', 'c', 's'], ['*', 'x', 'a']] := by
    decide
  refine ⟨?_, ?_, ?_⟩
  · simp [segment, walk]
  · exact .star ['*', 'x'] (.lit (by decide) (by decide) .nil)
  · rw [covers, hpattern, hpath]
    simp [isWild, full, segment, walk]

end TrwMcp.Handoff.Glob
