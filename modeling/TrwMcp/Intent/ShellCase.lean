import TrwMcp.Intent.Sidecar

/-!
# The patterns under the shell's `case`

The shell reads the rendered patterns by its own rules. It reads the items `fnmatch` reads in every
pattern whose bracket expressions are plain, so there it defers for every path Python would protect.
-/

namespace TrwMcp.Intent

open Lib

/-! ## Bracket expressions -/

/-- The members of a named class, as ASCII ranges. -/
def classRanges (name : List Char) : List (Char × Char) :=
  let lower := [('a', 'z')]
  let upper := [('A', 'Z')]
  let digit := [('0', '9')]
  let punct := [('!', '/'), (':', '@'), ('[', '\x60'), ('\x7b', '~')]
  match String.ofList name with
  | "lower" => lower
  | "upper" => upper
  | "alpha" => lower ++ upper
  | "digit" => digit
  | "alnum" => lower ++ upper ++ digit
  | "word" => lower ++ upper ++ digit ++ [('_', '_')]
  | "xdigit" => [('a', 'f'), ('A', 'F')] ++ digit
  | "punct" => punct
  | "graph" => [('!', '~')]
  | "print" => [(' ', '~')]
  | "blank" => [(' ', ' '), ('\t', '\t')]
  | "space" => [(' ', ' '), ('\t', '\r')]
  | "cntrl" => [('\x00', '\x1f'), ('\x7f', '\x7f')]
  | "ascii" => [('\x00', '\x7f')]
  | _ => []

/-- What stands before the closing `:]` (or `=]`, `.]`), and what follows it. -/
@[grind =] def namedUntil (mark : Char) : List Char → Option (List Char × List Char)
  | [] => none
  | c :: cs =>
      if c = mark ∧ cs.head? = some ']' then some ([], cs.tail)
      else (namedUntil mark cs).map fun (name, rest) => (c :: name, rest)

/-- One plain member of a bracket expression: a range, or a character. -/
def plainMember : List Char → Option (List (Char × Char) × List Char)
  | [] => none
  | [c] => some ([(c, c)], [])
  | [lo, c] => some ([(lo, lo)], [c])
  | lo :: c :: hi :: rest =>
      if c = '-' ∧ hi ≠ ']' then some ([(lo, hi)], rest) else some ([(lo, lo)], c :: hi :: rest)

/-- A collating symbol or an equivalence class of one character. -/
def singleName : List Char → List (Char × Char)
  | [c] => [(c, c)]
  | _ => []

/-- One member of a bracket expression. A named form that is not closed is no named form. -/
def bashMember (cs : List Char) : Option (List (Char × Char) × List Char) :=
  match cs with
  | '[' :: mark :: rest =>
      if mark = ':' ∨ mark = '=' ∨ mark = '.' then
        match namedUntil mark rest with
        | some (name, rest) =>
            some (if mark = ':' then classRanges name else singleName name, rest)
        | none => plainMember cs
      else plainMember cs
  | cs => plainMember cs

/-- The members up to the closing bracket, and what follows it; a `]` that comes first is a
member. -/
@[grind =] def bashMembers : Nat → Bool → List Char → Option (List (Char × Char) × List Char)
  | 0, _, _ => none
  | fuel + 1, first, cs =>
      if !first ∧ cs.head? = some ']' then some ([], cs.tail)
      else do
        let (ranges, rest) ← bashMember cs
        let (more, rest) ← bashMembers fuel false rest
        return (ranges ++ more, rest)

/-- The negation of a bracket expression, and its members. -/
def bashSplit : List Char → Bool × List Char
  | '!' :: rest | '^' :: rest => (true, rest)
  | rest => (false, rest)

/-- What stands after `[`: the set, and how many characters it takes up. -/
def bashBracket (cs : List Char) : Option (Glob.Item × Nat) :=
  let members := (bashSplit cs).2
  (bashMembers (members.length + 1) true members).map fun (ranges, rest) =>
    (.set (bashSplit cs).1 ranges, cs.length - rest.length)

/-- The items of a `case` pattern, extended patterns being off. -/
@[grind =] def bashItems : List Char → Nat → List Glob.Item
  | [], _ => []
  | _ :: cs, skip + 1 => bashItems cs skip
  | '*' :: cs, 0 => .star :: bashItems cs 0
  | '?' :: cs, 0 => .one :: bashItems cs 0
  | '[' :: cs, 0 =>
      match bashBracket cs with
      | none => .lit '[' :: bashItems cs 0
      | some (item, consumed) => item :: bashItems cs consumed
  | c :: cs, 0 => .lit c :: bashItems cs 0

/-- `case "$path" in $pattern)` -/
def shellMatches (pattern path : String) : Bool :=
  Glob.allMatch (bashItems pattern.toList 0) path.toList

/-- The checks of `_trw_fast_target` on the repo-relative path. -/
def isFastTarget (path : String) : Bool :=
  path ≠ "" &&
    path.toList.all (fun c => decide (33 ≤ c.toNat ∧ c.toNat ≤ 126) && c ≠ '"' && c ≠ '\\') &&
    (path.toList.splitOn '/').all fun segment =>
      decide (segment ≠ [] ∧ segment ≠ ['.'] ∧ segment ≠ ['.', '.'])

/-! ## Plain patterns -/

/-- The text opens a named form somewhere. -/
def opensNamed (body : List Char) : Bool :=
  body.tails.any fun
    | '[' :: mark :: _ => decide (mark = ':' ∨ mark = '=' ∨ mark = '.')
    | _ => false

/-- The set `fnmatch` reads neither starts with `^` nor opens a named form. -/
def isPlainBody (stuff : List Char) : Bool := stuff.head? ≠ some '^' && !opensNamed stuff

/-- Every set `fnmatch` reads in the pattern is plain. -/
@[grind =] def plainBrackets : List Char → Nat → Bool
  | [], _ => true
  | _ :: cs, skip + 1 => plainBrackets cs skip
  | '[' :: cs, 0 =>
      match fnmatchBody cs with
      | none => plainBrackets cs 0
      | some stuff => isPlainBody stuff && plainBrackets cs (stuff.length + 1)
  | _ :: cs, 0 => plainBrackets cs 0

theorem opensNamed_cons {c : Char} {cs : List Char} (h : opensNamed (c :: cs) = false) :
    opensNamed cs = false ∧
      (c = '[' → ∀ mark, cs.head? = some mark → mark ≠ ':' ∧ mark ≠ '=' ∧ mark ≠ '.') := by
  rw [opensNamed, List.tails, List.any_cons, Bool.or_eq_false_iff] at h
  refine ⟨h.2, ?_⟩
  rintro rfl mark hmark
  cases cs with
  | nil => cases hmark
  | cons d cs =>
      obtain rfl := Option.some.inj hmark
      simpa using h.1

theorem bashMember_plain {c : Char} {cs : List Char}
    (h : c = '[' → ∀ mark, cs.head? = some mark → mark ≠ ':' ∧ mark ≠ '=' ∧ mark ≠ '.') :
    bashMember (c :: cs) = plainMember (c :: cs) := by
  unfold bashMember
  split
  · next mark rest heq =>
    obtain ⟨rfl, rfl⟩ := List.cons.inj heq
    obtain ⟨h1, h2, h3⟩ := h rfl mark rfl
    simp [h1, h2, h3]
  · rfl

theorem plainMember_literal {c : Char} {cs : List Char}
    (h : ∀ hi rest, cs = '-' :: hi :: rest → hi = ']') :
    plainMember (c :: cs) = some ([(c, c)], cs) := by
  match cs, h with
  | [], _ => rfl
  | [_], _ => rfl
  | d :: hi :: rest, h =>
      have hno : ¬(d = '-' ∧ hi ≠ ']') := fun ⟨hd, hhi⟩ => hhi (h hi rest (by rw [hd]))
      rw [plainMember, if_neg hno]

theorem bashMembers_body {body rest : List Char} {fuel : Nat} {first : Bool}
    (hfuel : body.length < fuel) (hnot : ']' ∉ body.tail) (hlater : first = false → ']' ∉ body)
    (hfirst : first = true → body ≠ []) (hplain : opensNamed body = false) :
    bashMembers fuel first (body ++ ']' :: rest) = some (Glob.readRanges body, rest) := by
  induction body using Glob.readRanges.induct generalizing fuel first with
  | case1 =>
      cases fuel with
      | zero => omega
      | succ fuel =>
          cases first with
          | true => exact absurd rfl (hfirst rfl)
          | false => simp [bashMembers, Glob.readRanges]
  | case2 lo hi tail ih =>
      cases fuel with
      | zero => omega
      | succ fuel =>
          have hhead : ¬(!first ∧ (lo :: '-' :: hi :: (tail ++ ']' :: rest)).head? = some ']') := by
            rintro ⟨hf, heq⟩
            have hlo : lo = ']' := Option.some.inj heq
            exact hlater (by simpa using hf) (by simp [hlo])
          have hhi : hi ≠ ']' := by
            rintro rfl
            exact hnot (by simp)
          have htail : ']' ∉ tail := fun h => hnot (by simp [h])
          have hnamed := opensNamed_cons hplain
          have hmark : lo = '[' → ∀ mark, ('-' :: hi :: (tail ++ ']' :: rest)).head? = some mark →
              mark ≠ ':' ∧ mark ≠ '=' ∧ mark ≠ '.' := hnamed.2
          have hrest : bashMembers fuel false (tail ++ ']' :: rest) =
              some (Glob.readRanges tail, rest) := by
            refine ih ?_ (fun h => htail (List.mem_of_mem_tail h)) (fun _ => htail) (by simp)
              (opensNamed_cons (opensNamed_cons hnamed.1).1).1
            simp only [List.length_cons] at hfuel
            omega
          rw [List.cons_append, List.cons_append, List.cons_append, bashMembers, if_neg hhead,
            bashMember_plain hmark, plainMember, if_pos ⟨rfl, hhi⟩]
          simp [hrest, Glob.readRanges]
  | case3 c tail hno ih =>
      cases fuel with
      | zero => omega
      | succ fuel =>
          have hhead : ¬(!first ∧ (c :: (tail ++ ']' :: rest)).head? = some ']') := by
            rintro ⟨hf, heq⟩
            have hc : c = ']' := Option.some.inj heq
            exact hlater (by simpa using hf) (by simp [hc])
          have htail : ']' ∉ tail := hnot
          have hnamed := opensNamed_cons hplain
          have hranges : Glob.readRanges (c :: tail) = (c, c) :: Glob.readRanges tail := by
            rw [Glob.readRanges]
            exact hno
          have hmark : c = '[' → ∀ mark, (tail ++ ']' :: rest).head? = some mark →
              mark ≠ ':' ∧ mark ≠ '=' ∧ mark ≠ '.' := by
            intro hc mark hm
            cases tail with
            | nil =>
                obtain rfl := Option.some.inj hm
                decide
            | cons d tail => exact hnamed.2 hc mark hm
          have hliteral : ∀ hi rest', tail ++ ']' :: rest = '-' :: hi :: rest' → hi = ']' := by
            intro hi rest' heq
            match tail, heq with
            | [], heq => simp at heq
            | [d], heq =>
                simp only [List.cons_append, List.nil_append, List.cons.injEq] at heq
                exact heq.2.1.symm
            | d :: e :: tail', heq =>
                simp only [List.cons_append, List.cons.injEq] at heq
                exact (hno e tail' (by rw [heq.1])).elim
          have hrest : bashMembers fuel false (tail ++ ']' :: rest) =
              some (Glob.readRanges tail, rest) := by
            refine ih ?_ (fun h => htail (List.mem_of_mem_tail h)) (fun _ => htail) (by simp)
              hnamed.1
            simp only [List.length_cons] at hfuel
            omega
          rw [List.cons_append, bashMembers, if_neg hhead, bashMember_plain hmark,
            plainMember_literal hliteral, hranges]
          simp [hrest]

/-! ## Unclosed sets -/

theorem namedUntil_suffix {mark : Char} {cs name rest : List Char}
    (h : namedUntil mark cs = some (name, rest)) : rest <:+ cs := by
  induction cs generalizing name with
  | nil => cases h
  | cons c cs ih =>
      rw [namedUntil] at h
      split at h
      · obtain ⟨_, rfl⟩ := Prod.ext_iff.mp (Option.some.inj h)
        exact (List.tail_suffix cs).trans (List.suffix_cons c cs)
      · obtain ⟨⟨name', rest'⟩, hfound, heq⟩ := Option.map_eq_some_iff.mp h
        obtain ⟨_, rfl⟩ := Prod.ext_iff.mp heq
        exact (ih hfound).trans (List.suffix_cons c cs)

theorem plainMember_suffix {c : Char} {cs rest : List Char} {ranges : List (Char × Char)}
    (h : plainMember (c :: cs) = some (ranges, rest)) : rest <:+ cs := by
  match cs, h with
  | [], h =>
      obtain ⟨_, rfl⟩ := Prod.ext_iff.mp (Option.some.inj h)
      exact List.suffix_refl _
  | [_], h =>
      obtain ⟨_, rfl⟩ := Prod.ext_iff.mp (Option.some.inj h)
      exact List.suffix_refl _
  | d :: hi :: tail, h =>
      rw [plainMember] at h
      split at h <;> obtain ⟨_, rfl⟩ := Prod.ext_iff.mp (Option.some.inj h)
      · exact (List.suffix_cons hi tail).trans (List.suffix_cons d _)
      · exact List.suffix_refl _

theorem bashMember_suffix {c : Char} {cs rest : List Char} {ranges : List (Char × Char)}
    (h : bashMember (c :: cs) = some (ranges, rest)) : rest <:+ cs := by
  unfold bashMember at h
  split at h
  · next mark tail heq =>
    obtain ⟨rfl, rfl⟩ := List.cons.inj heq
    split at h
    · split at h
      · next name rest' hfound =>
        obtain ⟨_, rfl⟩ := Prod.ext_iff.mp (Option.some.inj h)
        exact (namedUntil_suffix hfound).trans (List.suffix_cons mark tail)
      · exact plainMember_suffix h
    · exact plainMember_suffix h
  · exact plainMember_suffix h

theorem bashMembers_unclosed {fuel : Nat} {first : Bool} {cs : List Char} (hnot : ']' ∉ cs.tail)
    (hlater : first = false → ']' ∉ cs) : bashMembers fuel first cs = none := by
  induction fuel generalizing first cs with
  | zero => rfl
  | succ fuel ih =>
      have hhead : ¬(!first ∧ cs.head? = some ']') := by
        rintro ⟨hf, heq⟩
        exact hlater (by simpa using hf) (List.mem_of_mem_head? heq)
      rw [bashMembers, if_neg hhead]
      cases cs with
      | nil => rfl
      | cons c cs =>
          cases hmember : bashMember (c :: cs) with
          | none => rfl
          | some found =>
              obtain ⟨ranges, rest⟩ := found
              have hrest : ']' ∉ rest := fun h => hnot ((bashMember_suffix hmember).subset h)
              have hnone := @ih false rest (fun h => hrest (List.mem_of_mem_tail h)) fun _ => hrest
              simp [hnone]

theorem upToBracket_eq_none {cs : List Char} (h : Glob.upToBracket cs = none) : ']' ∉ cs := by
  intro hmem
  obtain ⟨before, after, hsplit, hnot⟩ : ∃ before after, cs = before ++ ']' :: after ∧
      ']' ∉ before := by
    obtain ⟨before, after, rfl, hnot⟩ := List.eq_append_cons_of_mem hmem
    exact ⟨before, after, rfl, hnot⟩
  rw [hsplit, Glob.upToBracket_append hnot] at h
  cases h

theorem bracketBody_eq_none {cs : List Char} (h : Glob.bracketBody cs = none) : ']' ∉ cs.tail := by
  cases cs with
  | nil => simp
  | cons c cs => exact upToBracket_eq_none (by simpa [Glob.bracketBody] using h)

theorem bracketBody_eq {cs body : List Char} (h : Glob.bracketBody cs = some body) :
    body ≠ [] ∧ ']' ∉ body.tail ∧ ∃ rest, cs = body ++ ']' :: rest := by
  cases cs with
  | nil => cases h
  | cons c cs =>
      obtain ⟨tail, htail, rfl⟩ := Option.map_eq_some_iff.mp h
      obtain ⟨hnot, rest, rfl⟩ := Glob.upToBracket_eq htail
      exact ⟨by simp, hnot, rest, rfl⟩

/-! ## The two readers -/

theorem bashBracket_unclosed {cs : List Char} (h : fnmatchBody cs = none) :
    bashBracket cs = none := by
  have hnone (members : List Char) (hnot : ']' ∉ members.tail) :
      bashMembers (members.length + 1) true members = none :=
    bashMembers_unclosed hnot (by simp)
  rw [bashBracket, Option.map_eq_none_iff]
  unfold fnmatchBody at h
  split at h
  · exact hnone _ (bracketBody_eq_none (Option.map_eq_none_iff.mp h))
  · next hnot =>
    have htail := bracketBody_eq_none h
    unfold bashSplit
    split
    · exact absurd rfl (hnot _)
    · exact hnone _ fun hmem => htail (List.mem_of_mem_tail hmem)
    · exact hnone _ htail

theorem bashBracket_plain {cs stuff : List Char} (h : fnmatchBody cs = some stuff)
    (hplain : isPlainBody stuff = true) :
    bashBracket cs = some (fnmatchSet stuff, stuff.length + 1) := by
  simp only [isPlainBody, Bool.and_eq_true, decide_eq_true_eq, Bool.not_eq_true'] at hplain
  obtain ⟨hcaret, hnamed⟩ := hplain
  have hread (body rest : List Char) (hne : body ≠ []) (hnot : ']' ∉ body.tail)
      (hopen : opensNamed body = false) :
      bashMembers ((body ++ ']' :: rest).length + 1) true (body ++ ']' :: rest) =
        some (Glob.readRanges body, rest) :=
    bashMembers_body (by simp only [List.length_append, List.length_cons]; omega) hnot (by simp) (fun _ => hne) hopen
  rw [bashBracket]
  unfold fnmatchBody at h
  split at h
  · next rest =>
    obtain ⟨body, hbody, rfl⟩ := Option.map_eq_some_iff.mp h
    obtain ⟨hne, hnot, tail, rfl⟩ := bracketBody_eq hbody
    rw [show bashSplit ('!' :: (body ++ ']' :: tail)) = (true, body ++ ']' :: tail) from rfl,
      hread body tail hne hnot (opensNamed_cons hnamed).1]
    simp [fnmatchSet]
    omega
  · next hbang =>
    obtain ⟨hne, hnot, tail, rfl⟩ := bracketBody_eq h
    obtain ⟨c, body, rfl⟩ := List.exists_cons_of_ne_nil hne
    have hc : c ≠ '!' ∧ c ≠ '^' := by
      refine ⟨?_, fun heq => hcaret (by rw [heq]; rfl)⟩
      rintro rfl
      exact hbang _ rfl
    have hsplit : bashSplit (c :: body ++ ']' :: tail) = (false, c :: body ++ ']' :: tail) := by
      unfold bashSplit
      split
      · next heq => exact absurd (List.cons.inj heq).1 hc.1
      · next heq => exact absurd (List.cons.inj heq).1 hc.2
      · rfl
    have hset : fnmatchSet (c :: body) = .set false (Glob.readRanges (c :: body)) := by
      unfold fnmatchSet
      split
      · next heq => exact absurd (List.cons.inj heq).1 hc.1
      · rfl
    rw [hsplit, hread (c :: body) tail hne hnot hnamed, hset]
    simp
    omega

theorem bashItems_eq {cs : List Char} {skip : Nat} (h : plainBrackets cs skip = true) :
    bashItems cs skip = fnmatchItems cs skip := by
  induction cs, skip using fnmatchItems.induct with
  | case1 => rfl
  | case2 _ cs skip ih => exact ih h
  | case3 cs ih => rw [bashItems, fnmatchItems, ih h]
  | case4 cs ih => rw [bashItems, fnmatchItems, ih h]
  | case5 cs hbody ih =>
      rw [plainBrackets, hbody] at h
      rw [bashItems, fnmatchItems, hbody, bashBracket_unclosed hbody]
      simp only [ih h]
  | case6 cs stuff hbody ih =>
      rw [plainBrackets, hbody] at h
      simp only [Bool.and_eq_true] at h
      rw [bashItems, fnmatchItems, hbody, bashBracket_plain hbody h.1]
      simp only [ih h.2]
  | case7 c cs hstar hone hset ih =>
      have hplain : plainBrackets cs 0 = true := by
        rwa [plainBrackets] at h
        exact hset
      rw [bashItems, fnmatchItems, ih hplain] <;> assumption

/-! ## Anchors and rendered patterns -/

theorem bashItems_lits {lits rest : List Char} (h : ∀ c ∈ lits, c ∉ globChars) :
    bashItems (lits ++ rest) 0 = lits.map .lit ++ bashItems rest 0 := by
  induction lits with
  | nil => rfl
  | cons c lits ih =>
      have hc := h c (by simp)
      simp only [globChars, List.mem_cons, List.not_mem_nil, or_false, not_or] at hc
      rw [List.cons_append, bashItems, ih fun d hd => h d (List.mem_cons_of_mem _ hd)]
      · rfl
      · exact fun heq => hc.1 heq
      · exact fun heq => hc.2.1 heq
      · exact fun heq => hc.2.2 heq

theorem patternsFor_cover {anchor path : String} {patterns : List String}
    (hrender : patternsFor anchor = some patterns)
    (hplain : plainBrackets (rstripSlash anchor).toList 0 = true)
    (hmatch : anchorMatches anchor path = true) :
    ∃ pattern ∈ patterns, shellMatches pattern path = true := by
  unfold anchorMatches at hmatch
  split at hmatch
  · cases hmatch
  · simp only [patternsFor, Option.ite_none_right_eq_some] at hrender
    obtain ⟨_, hpatterns⟩ := hrender
    by_cases hglob : isGlobAnchor (rstripSlash anchor) = true
    · rw [if_pos hglob] at hpatterns hmatch
      obtain rfl := Option.some.inj hpatterns
      refine ⟨_, List.mem_singleton_self _, ?_⟩
      rw [shellMatches, bashItems_eq hplain]
      exact hmatch
    · rw [if_neg hglob] at hpatterns hmatch
      obtain rfl := Option.some.inj hpatterns
      have hlits : ∀ c ∈ (rstripSlash anchor).toList, c ∉ globChars := by
        simpa [isGlobAnchor] using hglob
      rcases (Bool.or_eq_true _ _).mp hmatch with heq | hunder
      · refine ⟨rstripSlash anchor, by simp, ?_⟩
        have hitems := @bashItems_lits (rstripSlash anchor).toList [] hlits
        rw [List.append_nil] at hitems
        rw [shellMatches, hitems, Glob.allMatch_lits]
        exact ⟨[], by rw [List.append_nil, beq_iff_eq.mp heq], rfl⟩
      · refine ⟨rstripSlash anchor ++ "/*", by simp, ?_⟩
        obtain ⟨rest, hrest⟩ := List.isPrefixOf_iff_prefix.mp hunder
        have hlist : (rstripSlash anchor ++ "/*").toList =
            (rstripSlash anchor).toList ++ ['/', '*'] := by simp
        have htail : bashItems ['/', '*'] 0 = [.lit '/', .star] := rfl
        rw [shellMatches, hlist, bashItems_lits hlits, htail, Glob.allMatch_lits]
        refine ⟨'/' :: rest, by simp [← hrest], Glob.allMatch_lit.mpr ⟨rest, rfl, ?_⟩⟩
        exact Glob.allMatch_star.mpr ⟨[], List.nil_suffix, rfl⟩

theorem of_mem_mapM {α β : Type} {f : α → Option β} {xs : List α} {ys : List β}
    (h : xs.mapM f = some ys) : ∀ x ∈ xs, ∃ y ∈ ys, f x = some y := by
  induction xs generalizing ys with
  | nil => simp
  | cons x xs ih =>
      simp only [List.mapM_cons, Option.bind_eq_bind, Option.bind_eq_some_iff, Option.pure_def,
        Option.some.injEq] at h
      obtain ⟨y, hy, ys', hys, rfl⟩ := h
      intro z hz
      rcases List.mem_cons.mp hz with rfl | hz
      · exact ⟨y, by simp, hy⟩
      · obtain ⟨w, hw, hzw⟩ := ih hys z hz
        exact ⟨w, List.mem_cons_of_mem _ hw, hzw⟩

/-- Every bracket expression in an eligible anchor is plain. -/
def PlainAnchors (contract : Contract) : Prop :=
  ∀ claim ∈ eligibleClaims contract, ∀ anchor ∈ claim.anchors,
    plainBrackets (rstripSlash anchor).toList 0 = true

/-- The shell meets a rendered pattern that the path matches, and defers. -/
def SidecarDefers (lines : List String) (path : String) : Prop :=
  ∃ pattern, "p " ++ pattern ∈ lines ∧ shellMatches pattern path = true

/-- A contract whose one claim anchors this. -/
def anchoring (anchor : String) : Contract where
  claims := [{
    claimId := "C-1"
    text := "generated code is not edited"
    authorityClass := .humanApproved
    state := .active
    machineCheckable := true
    bindingChannel := .blockingHook
    anchors := [anchor] }]

/-- The sidecar of such a contract, in a project without installed hooks. -/
def sidecarOf (anchor : String) : Option (List String) :=
  renderGlobSidecar (fun _ => none) (some (anchoring anchor)) "contract.yaml" "d1"

end TrwMcp.Intent
