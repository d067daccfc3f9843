import TrwMcp.Bootstrap.Jsonc
import TrwMcp.Lib.Except

/-!
# The stripper keeps the value of a document

Where every match of the pattern for block comments is a block comment or lies in a line comment,
exactly the comments of the document go, so its value is read.
-/

namespace TrwMcp.Bootstrap.Jsonc

open Handoff Lib.Except

/-! ## Marks -/

theorem head_append_ne {c : Char} {a b : List Char} (hb : b.head? ≠ some c)
    (ha : ∀ rest, a ≠ c :: rest) : (a ++ b).head? ≠ some c := by
  cases a with
  | nil => exact hb
  | cons d a =>
      rintro hd
      obtain rfl : d = c := by simpa using hd
      exact ha a rfl

theorem not_mark {a b c : Char} {cs : List Char} (h : ∀ rest, c = a → cs = b :: rest → False) :
    c ≠ a ∨ cs.head? ≠ some b := by
  by_cases hc : c = a
  · refine .inr fun hd => ?_
    obtain ⟨rest, hrest⟩ := List.head?_eq_some_iff.1 hd
    exact h rest hc hrest
  · exact .inl hc

theorem not_mark_append {a b c : Char} {cs after : List Char}
    (h : ∀ rest, c = a → cs = b :: rest → False) (hafter : after.head? ≠ some b) :
    c ≠ a ∨ (cs ++ after).head? ≠ some b := by
  by_cases hc : c = a
  · exact .inr (head_append_ne hafter fun rest hrest => h rest hc hrest)
  · exact .inl hc

theorem hasClose_cons {c : Char} {cs : List Char} (h : c ≠ '*' ∨ cs.head? ≠ some '/') :
    hasClose (c :: cs) = hasClose cs := by
  rw [hasClose]
  rintro _ rfl rfl
  simp at h

theorem hasClose_of_tail {c : Char} {cs : List Char} (h : hasClose cs = true) :
    hasClose (c :: cs) = true := by
  by_cases hc : c ≠ '*' ∨ cs.head? ≠ some '/'
  · rwa [hasClose_cons hc]
  · simp only [not_or, not_not] at hc
    obtain ⟨rest, rfl⟩ := List.head?_eq_some_iff.1 hc.2
    rw [hc.1]
    rfl

theorem hasClose_append_right (a : List Char) {b : List Char} (h : hasClose b = true) :
    hasClose (a ++ b) = true := by
  induction a with
  | nil => exact h
  | cons c a ih => exact hasClose_of_tail ih

theorem hasClose_append_left {a : List Char} (h : hasClose a = true) (b : List Char) :
    hasClose (a ++ b) = true := by
  fun_induction hasClose a with
  | case1 => cases h
  | case2 cs => rfl
  | case3 c cs _ ih => exact hasClose_of_tail (ih h)

theorem hasClose_append {a b : List Char} (hb : b.head? ≠ some '/') :
    hasClose (a ++ b) = (hasClose a || hasClose b) := by
  fun_induction hasClose a with
  | case1 => simp
  | case2 cs => rfl
  | case3 c cs hc ih =>
      rw [List.cons_append, hasClose_cons (not_mark_append hc hb), ih]

theorem hasClose_false_of_tail {c : Char} {cs : List Char} (h : hasClose (c :: cs) = false) :
    hasClose cs = false := by
  by_contra htail
  rw [Bool.not_eq_false] at htail
  rw [hasClose_of_tail htail] at h
  cases h

/-! ## Block comments -/

theorem stripBlocks_cons {c : Char} {cs : List Char} (h : c ≠ '/' ∨ cs.head? ≠ some '*') :
    stripBlocks false (c :: cs) = c :: stripBlocks false cs := by
  rw [stripBlocks]
  rintro _ rfl rfl
  simp at h

theorem stripBlocks_open {cs : List Char} (h : hasClose cs = false) :
    stripBlocks false ('/' :: '*' :: cs) = '/' :: '*' :: stripBlocks false cs := by
  rw [stripBlocks, if_neg (by simp [h]), stripBlocks_cons (.inl (by decide))]

theorem stripBlocks_inside {c : Char} {cs : List Char} (h : c ≠ '*' ∨ cs.head? ≠ some '/') :
    stripBlocks true (c :: cs) = stripBlocks true cs := by
  rw [stripBlocks]
  rintro _ rfl rfl
  simp at h

theorem stripBlocks_eq_self {cs : List Char} (h : hasClose cs = false) :
    stripBlocks false cs = cs := by
  induction cs with
  | nil => rfl
  | cons c cs ih =>
      have htail := hasClose_false_of_tail h
      by_cases hc : c ≠ '/' ∨ cs.head? ≠ some '*'
      · rw [stripBlocks_cons hc, ih htail]
      · simp only [not_or, not_not] at hc
        obtain ⟨rest, rfl⟩ := List.head?_eq_some_iff.1 hc.2
        have hrest := ih htail
        rw [stripBlocks_cons (.inl (by decide))] at hrest
        rw [hc.1, stripBlocks_open (hasClose_false_of_tail htail), (List.cons.inj hrest).2]

theorem stripBlocks_comment {comment : List Char} (h : hasClose comment = false)
    (after : List Char) :
    stripBlocks true (comment ++ '*' :: '/' :: after) = stripBlocks false after := by
  induction comment with
  | nil => rw [List.nil_append, stripBlocks]
  | cons c cs ih =>
      rw [List.cons_append, stripBlocks_inside, ih (hasClose_false_of_tail h)]
      by_cases hc : c = '*'
      · refine .inr ?_
        cases cs with
        | nil => simp
        | cons d cs =>
            rintro hd
            obtain rfl : d = '/' := by simpa using hd
            rw [hc] at h
            cases h
      · exact .inl hc

theorem stripBlocks_keep {text after : List Char} (hafter : after.head? ≠ some '*')
    (h : ∀ rest, afterOpen text = some rest → hasClose (rest ++ after) = false) :
    stripBlocks false (text ++ after) = text ++ stripBlocks false after := by
  fun_induction afterOpen text with
  | case1 => rfl
  | case2 cs =>
      have hrest := h cs rfl
      have hself : hasClose after = false := by
        by_contra hclose
        rw [Bool.not_eq_false] at hclose
        rw [hasClose_append_right cs hclose] at hrest
        cases hrest
      rw [List.cons_append, List.cons_append, stripBlocks_open hrest, stripBlocks_eq_self hrest,
        stripBlocks_eq_self hself]
      rfl
  | case3 c cs hc ih =>
      rw [List.cons_append, stripBlocks_cons (not_mark_append hc hafter), ih h]
      rfl

theorem stripBlocks_line {inside : Bool} {text after : List Char} (hline : '\n' ∉ text)
    (hafter : after = [] ∨ after.head? = some '\n')
    (hopen : inside = true → hasClose text = true)
    (h : unclosed inside text = true → hasClose after = false) :
    ∃ kept, '\n' ∉ kept ∧
      stripBlocks inside (text ++ after) = kept ++ stripBlocks false after := by
  have hstar : after.head? ≠ some '*' := by rcases hafter with rfl | h <;> simp [*]
  have hslash : after.head? ≠ some '/' := by rcases hafter with rfl | h <;> simp [*]
  -- along the pattern's own scan of the line
  fun_induction unclosed inside text with
  | case1 inside =>
      cases inside with
      | false => exact ⟨[], by simp, rfl⟩
      | true => cases hopen rfl
  | case2 cs hclose ih =>
      obtain ⟨kept, hkept, heq⟩ := ih (by simp_all) (fun _ => hclose) h
      refine ⟨kept, hkept, ?_⟩
      rw [List.cons_append, List.cons_append, stripBlocks, if_pos (hasClose_append_left hclose _)]
      exact heq
  | case3 cs hclose =>
      refine ⟨'/' :: '*' :: cs, hline, ?_⟩
      have hnone : hasClose (cs ++ after) = false := by
        rw [hasClose_append hslash, h rfl, Bool.or_false]
        simpa using hclose
      rw [List.cons_append, List.cons_append, stripBlocks_open hnone, stripBlocks_eq_self hnone,
        stripBlocks_eq_self (h rfl)]
      rfl
  | case4 cs ih =>
      obtain ⟨kept, hkept, heq⟩ := ih (by simp_all) (by simp) h
      exact ⟨kept, hkept, by rw [List.cons_append, List.cons_append, stripBlocks, heq]⟩
  | case5 inside c cs hopened hclosed ih =>
      have hcs : '\n' ∉ cs := fun hn => hline (.tail _ hn)
      cases inside with
      | false =>
          obtain ⟨kept, hkept, heq⟩ := ih hcs (by simp) h
          refine ⟨c :: kept, ?_, ?_⟩
          · simp only [List.mem_cons, not_or] at hline ⊢
            exact ⟨hline.1, hkept⟩
          · rw [List.cons_append,
              stripBlocks_cons (not_mark_append (fun rest => hopened rest rfl) hstar), heq]
            rfl
      | true =>
          have hmark := not_mark fun rest => hclosed rest rfl
          have hclose : hasClose cs = true := by rw [← hasClose_cons hmark]; exact hopen rfl
          obtain ⟨kept, hkept, heq⟩ := ih hcs (fun _ => hclose) h
          refine ⟨kept, hkept, ?_⟩
          rw [List.cons_append,
            stripBlocks_inside (not_mark_append (fun rest => hclosed rest rfl) hslash), heq]

/-! ## Line comments -/

theorem stripLines_plain {c : Char} (h : (Piece.plain c).Valid) (cs : List Char) :
    stripLines .code (c :: cs) = c :: stripLines .code cs := by
  rw [stripLines, if_neg h.1, if_neg fun hc => h.2 hc.1]

theorem stripLines_body {body : List Char} (h : isBody body = true) (cs : List Char) :
    stripLines .string (body ++ '"' :: cs) = body ++ '"' :: stripLines .code cs := by
  fun_induction isBody body with
  | case1 => rw [List.nil_append, stripLines, if_neg (by decide), if_pos rfl]; rfl
  | case2 c body ih =>
      rw [List.cons_append, List.cons_append, stripLines, if_pos rfl, stripLines, ih h]
      rfl
  | case3 c body hc ih =>
      simp only [Bool.and_eq_true, bne_iff_ne] at h
      obtain ⟨⟨hback, hquote⟩, hbody⟩ := h
      rw [List.cons_append, stripLines, if_neg hback, if_neg hquote, ih hbody]
      rfl

theorem stripLines_comment {kept after : List Char} (hkept : '\n' ∉ kept)
    (hafter : after = [] ∨ after.head? = some '\n') :
    stripLines .comment (kept ++ after) = stripLines .code after := by
  induction kept with
  | nil =>
      rcases hafter with rfl | hafter
      · rfl
      · obtain ⟨rest, rfl⟩ := List.head?_eq_some_iff.1 hafter
        have hvalid : (Piece.plain '\n').Valid := ⟨by decide, by decide⟩
        rw [List.nil_append, stripLines_plain hvalid, stripLines, if_pos rfl]
  | cons c kept ih =>
      simp only [List.mem_cons, not_or] at hkept
      rw [List.cons_append, stripLines, if_neg (Ne.symm hkept.1), ih hkept.2]

/-! ## Documents -/

theorem source_cons (p : Piece) (doc : List Piece) : source (p :: doc) = p.source ++ source doc :=
  List.flatMap_cons

theorem stripBlocks_head {cs : List Char} (h : cs = [] ∨ cs.head? = some '\n') :
    stripBlocks false cs = [] ∨ (stripBlocks false cs).head? = some '\n' := by
  rcases h with rfl | h
  · exact .inl rfl
  · obtain ⟨rest, rfl⟩ := List.head?_eq_some_iff.1 h
    rw [stripBlocks_cons (.inl (by decide))]
    exact .inr rfl

theorem source_head {doc : List Piece} (h : doc = [] ∨ doc.head? = some (.plain '\n')) :
    source doc = [] ∨ (source doc).head? = some '\n' := by
  rcases h with rfl | h
  · exact .inl rfl
  · obtain ⟨rest, rfl⟩ := List.head?_eq_some_iff.1 h
    exact .inr rfl

theorem stripJsoncComments_eq {doc : List Piece} (hvalid : Valid doc) (hapart : Apart doc) :
    stripJsoncComments (source doc) = serialization doc := by
  unfold stripJsoncComments
  induction doc with
  | nil => rfl
  | cons p doc ih =>
      obtain ⟨hp, hnext, hdoc⟩ := hvalid
      obtain ⟨hpiece, hrest⟩ := hapart
      have hrec := ih hdoc hrest
      rw [source_cons, serialization, List.flatMap_cons, ← serialization, ← hrec]
      cases p with
      | plain c =>
          show stripLines .code (stripBlocks false (c :: source doc)) = _
          rw [stripBlocks_cons (.inl hp.2), stripLines_plain hp]
          rfl
      | literal body =>
          -- a mark in the string opens nothing, so it comes through the first scan
          have hkeep : stripBlocks false (body ++ '"' :: source doc) =
              body ++ stripBlocks false ('"' :: source doc) :=
            stripBlocks_keep (by simp) fun rest hopen => hpiece rest hopen
          show stripLines .code (stripBlocks false ('"' :: (body ++ ['"'] ++ source doc))) = _
          rw [List.append_assoc, List.singleton_append, stripBlocks_cons (.inl (by decide)), hkeep,
            stripBlocks_cons (.inl (by decide)), stripLines, if_pos rfl, stripLines_body hp]
          simp [Piece.token, Piece.source]
      | line comment =>
          have hafter := source_head (hnext comment rfl)
          have hstar : (source doc).head? ≠ some '*' := by
            rcases hafter with h | h <;> simp [h]
          have hslash : stripBlocks false ('/' :: (comment ++ source doc)) =
              '/' :: stripBlocks false (comment ++ source doc) := by
            by_cases hopen : comment.head? = some '*'
            · obtain ⟨rest, rfl⟩ := List.head?_eq_some_iff.1 hopen
              have hnone : hasClose (rest ++ source doc) = false := hpiece.1 rfl
              rw [List.cons_append, stripBlocks_open hnone, stripBlocks_cons (.inl (by decide))]
            · exact stripBlocks_cons
                (.inr (head_append_ne hstar fun rest h => hopen (by rw [h]; rfl)))
          -- what the first scan leaves of the comment is still a comment up to the line end
          obtain ⟨kept, hkept, heq⟩ := stripBlocks_line hp hafter (by simp) hpiece.2
          show stripLines .code (stripBlocks false ('/' :: '/' :: (comment ++ source doc))) = _
          rw [stripBlocks_cons (.inr (by simp)), hslash, heq, stripLines, if_neg (by decide),
            if_pos ⟨rfl, rfl⟩, stripLines, if_neg (by decide),
            stripLines_comment hkept (stripBlocks_head hafter)]
          rfl
      | block comment =>
          have hclose : hasClose (comment ++ '*' :: '/' :: source doc) = true :=
            hasClose_append_right comment rfl
          show stripLines .code (stripBlocks false
            ('/' :: '*' :: (comment ++ ['*', '/'] ++ source doc))) = _
          rw [List.append_assoc, List.cons_append, List.singleton_append, stripBlocks,
            if_pos hclose, stripBlocks_comment hp]
          rfl

/-! ## Texts without comments -/

/-- The pattern for block comments finds nothing. -/
def Unmatched (cs : List Char) : Prop := ∀ rest, afterOpen cs = some rest → hasClose rest = false

theorem stripLines_length (mode : Mode) (cs : List Char) :
    (stripLines mode cs).length ≤ cs.length := by
  fun_induction stripLines mode cs <;> simp only [List.length_cons, List.length_nil] <;> omega

theorem stripBlocks_length (inside : Bool) (cs : List Char) :
    (stripBlocks inside cs).length ≤ cs.length := by
  fun_induction stripBlocks inside cs <;>
    simp only [List.length_cons, List.length_nil] at * <;> omega

theorem stripBlocks_shorter {cs rest : List Char} (h : afterOpen cs = some rest)
    (hclose : hasClose rest = true) : (stripBlocks false cs).length < cs.length := by
  fun_induction afterOpen cs with
  | case1 => cases h
  | case2 cs =>
      obtain rfl := Option.some.inj h
      have hlength := stripBlocks_length true cs
      rw [stripBlocks, if_pos hclose, List.length_cons, List.length_cons]
      omega
  | case3 c cs hc ih =>
      rw [stripBlocks_cons (not_mark hc), List.length_cons, List.length_cons]
      exact Nat.succ_lt_succ (ih h)

theorem unmatched_of_kept {cs : List Char} (h : stripJsoncComments cs = cs) : Unmatched cs := by
  intro rest hopen
  by_contra hclose
  rw [Bool.not_eq_false] at hclose
  have hshorter := stripBlocks_shorter hopen hclose
  have hlength := stripLines_length .code (stripBlocks false cs)
  rw [← stripJsoncComments, h] at hlength
  omega

theorem afterOpen_cons {c : Char} {cs : List Char} (h : c ≠ '/' ∨ cs.head? ≠ some '*') :
    afterOpen (c :: cs) = afterOpen cs := by
  rw [afterOpen]
  rintro _ rfl rfl
  simp at h

theorem afterOpen_suffix {cs rest : List Char} (h : afterOpen cs = some rest) : rest <:+ cs := by
  fun_induction afterOpen cs with
  | case1 => cases h
  | case2 cs =>
      obtain rfl := Option.some.inj h
      exact List.suffix_append ['/', '*'] _
  | case3 c cs _ ih => exact (ih h).trans (List.suffix_cons c cs)

theorem hasClose_suffix {a b : List Char} (h : a <:+ b) (hb : hasClose b = false) :
    hasClose a = false := by
  obtain ⟨front, rfl⟩ := h
  by_contra ha
  rw [Bool.not_eq_false] at ha
  rw [hasClose_append_right front ha] at hb
  cases hb

theorem Unmatched.tail {c : Char} {cs : List Char} (h : Unmatched (c :: cs)) : Unmatched cs := by
  intro rest hopen
  by_cases hc : c ≠ '/' ∨ cs.head? ≠ some '*'
  · exact h rest (by rw [afterOpen_cons hc, hopen])
  · simp only [not_or, not_not] at hc
    obtain ⟨more, rfl⟩ := List.head?_eq_some_iff.1 hc.2
    have hmore : hasClose more = false := h more (by rw [hc.1]; rfl)
    -- the text after a later mark is part of the text after this one
    rw [afterOpen_cons (.inl (by decide))] at hopen
    exact hasClose_suffix (afterOpen_suffix hopen) hmore

theorem Unmatched.append_right {a b : List Char} (h : Unmatched (a ++ b)) : Unmatched b := by
  induction a with
  | nil => exact h
  | cons c a ih => exact ih h.tail

theorem afterOpen_append {a rest : List Char} (h : afterOpen a = some rest) (b : List Char) :
    afterOpen (a ++ b) = some (rest ++ b) := by
  fun_induction afterOpen a with
  | case1 => cases h
  | case2 cs =>
      obtain rfl := Option.some.inj h
      rfl
  | case3 c cs hc ih =>
      rw [List.cons_append, afterOpen_cons, ih h]
      by_cases hslash : c = '/'
      · refine .inr ?_
        cases cs with
        | nil => cases h
        | cons d cs =>
            intro hd
            simp only [List.cons_append, List.head?_cons, Option.some.injEq] at hd
            exact hc cs hslash (by rw [hd])
      · exact .inl hslash

theorem kept_iff {doc : List Piece} (hvalid : Valid doc) (hplain : ∀ p ∈ doc, p.token = p.source) :
    stripJsoncComments (source doc) = source doc ↔ Apart doc := by
  have hserial : serialization doc = source doc := List.flatMap_congr hplain
  constructor
  · intro h
    -- a match would have made the text shorter, and a mark in a string would be one
    have hunmatched := unmatched_of_kept h
    clear h hserial hvalid
    induction doc with
    | nil => trivial
    | cons p doc ih =>
        rw [source_cons] at hunmatched
        refine ⟨?_, ih (fun q hq => hplain q (.tail _ hq)) hunmatched.append_right⟩
        cases p with
        | literal body =>
            intro rest hopen
            have hbody : Unmatched (body ++ '"' :: source doc) := by
              simpa [Piece.source] using hunmatched.tail
            exact hbody _ (afterOpen_append hopen _)
        | line comment => cases hplain _ (.head _)
        | plain c => trivial
        | block comment => trivial
  · intro h
    rw [stripJsoncComments_eq hvalid h, hserial]

/-- Where the pattern for block comments finds nothing but comments, a document has the value of
its JSON text. A text without comments is kept as it is only there. -/
theorem parseJsonc_document {doc : List Piece} (hvalid : Valid doc) :
    (Apart doc → ∀ v : Json,
      parseText plainObject (String.ofList (serialization doc)) = .ok v →
        parseJsonc (source doc) = .ok v) ∧
    ((∀ p ∈ doc, p.token = p.source) →
      (stripJsoncComments (source doc) = source doc ↔ Apart doc)) := by
  refine ⟨fun hapart v hv => ?_, kept_iff hvalid⟩
  rw [parseJsonc, stripJsoncComments_eq hvalid hapart, hv]

/-- A member whose value is a pattern, with a comment at the end of its line. -/
def sampleDocument (pattern : List Char) : List Piece :=
  [.plain '\x7b', .literal ['i', 'n'], .plain ':', .block [' ', '"'], .literal pattern,
    .line [' ', 's', 'e', 'e', ' ', '/', '*', 'x', '*', '/'], .plain '\n', .plain '\x7d']

theorem parseJsonc_sample :
    parseJsonc (source (sampleDocument ['/', '/', 'a', '*', '/'])) =
      .ok (.obj [("in", .str "//a*/")]) := by
  refine (parseJsonc_document ?_).1 ?_ _ ?_
  · simp [sampleDocument, Valid, Piece.Valid, isBody, hasClose]
  · simp [sampleDocument, Apart, Piece.Apart, afterOpen, unclosed, hasClose]
  · exact ok_of_toOption (by decide +kernel)

/-- A pattern such as `src/**/*.ts` loses what the stripper takes for a comment. -/
theorem pattern_stripped :
    parseText plainObject (String.ofList (serialization
        (sampleDocument ['s', '/', '*', '*', '/', '*', '.', 't', 's']))) =
        .ok (.obj [("in", .str "s/**/*.ts")]) ∧
      parseJsonc (source (sampleDocument ['s', '/', '*', '*', '/', '*', '.', 't', 's'])) =
        .ok (.obj [("in", .str "s*.ts")]) :=
  ⟨ok_of_toOption (by decide +kernel), ok_of_toOption (by decide +kernel)⟩

end TrwMcp.Bootstrap.Jsonc
