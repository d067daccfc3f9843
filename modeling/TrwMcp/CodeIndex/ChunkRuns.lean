import TrwMcp.CodeIndex.Chunking

/-!
# Every statement is indexed

When the chunks of a file are its lines: windows tile the span they are cut from, the pieces hold
every statement, and the lines of `str.splitlines` are those the parser counts wherever a piece
looks them up.
-/

namespace TrwMcp.CodeIndex

open Intent Lib

/-! ## Windows -/

/-- Consecutive windows from `start` that end at `stop`. -/
inductive Tiles (stop : Nat) : Nat → List CodeChunk → Prop
  | done {start : Nat} (past : stop < start) : Tiles stop start []
  | window {w : CodeChunk} {ws : List CodeChunk} (forward : w.startLine ≤ w.endLine)
      (inside : w.endLine ≤ stop) (bounded : w.endLine < w.startLine + maxChunkLines)
      (rest : Tiles stop (w.endLine + 1) ws) : Tiles stop w.startLine (w :: ws)

section

variable {py : Python} {spec : Nat → ChunkSpec} {lines : List (List Char)} {start stop : Nat}
  {ws : List CodeChunk}

theorem Tiles.inside (h : Tiles stop start ws) : ∀ w ∈ ws, start ≤ w.startLine ∧
    w.startLine ≤ w.endLine ∧ w.endLine ≤ stop ∧ w.endLine < w.startLine + maxChunkLines := by
  induction h with
  | done _ => simp
  | @window w ws forward inside bounded _ ih =>
      intro v hv
      rcases List.mem_cons.mp hv with rfl | hv
      · exact ⟨le_refl _, forward, inside, bounded⟩
      · obtain ⟨hstart, hrest⟩ := ih v hv
        exact ⟨by omega, hrest⟩

theorem Tiles.covers (h : Tiles stop start ws) {l : Nat} (hl : start ≤ l) (hl' : l ≤ stop) :
    ∃ w ∈ ws, w.startLine ≤ l ∧ l ≤ w.endLine := by
  induction h with
  | done past => omega
  | @window w ws _ _ _ _ ih =>
      by_cases hfirst : l ≤ w.endLine
      · exact ⟨w, List.mem_cons_self, hl, hfirst⟩
      · obtain ⟨v, hv, hin⟩ := ih (by omega)
        exact ⟨v, List.mem_cons_of_mem _ hv, hin⟩

theorem tiles_windowStarts {fuel : Nat} (hfuel : stop < start + fuel) :
    Tiles stop start ((windowStarts fuel start stop).map fun s =>
      chunkOf py (spec s) lines s (windowStop s stop)) := by
  induction fuel generalizing start with
  | zero => exact .done (by omega)
  | succ fuel ih =>
      rw [windowStarts]
      split
      · next hle =>
          rw [List.map_cons]
          generalize hw : chunkOf py (spec start) lines start (windowStop start stop) = w
          have hstart : w.startLine = start := by rw [← hw]; rfl
          have hend : w.endLine = min (start + maxChunkLines - 1) stop := by rw [← hw]; rfl
          have hsize : maxChunkLines = 80 := rfl
          have hrest := @ih (start + maxChunkLines) (by omega)
          rw [← hstart]
          refine .window (by omega) (by omega) (by omega) ?_
          by_cases hlast : start + maxChunkLines ≤ stop
          · have hnext : w.endLine + 1 = start + maxChunkLines := by omega
            rw [hnext]
            simpa [hstart] using hrest
          · have hnone : windowStarts fuel (start + maxChunkLines) stop = [] := by
              cases fuel with
              | zero => rfl
              | succ fuel => exact if_neg hlast
            rw [hstart, hnone]
            exact .done (by omega)
      · exact .done (by omega)

/-- The windows of a span over some lines. -/
structure Cuts (lines : List (List Char)) (start stop : Nat) (ws : List CodeChunk) : Prop where
  tiles : Tiles stop start ws
  slices : ∀ w ∈ ws, w.text = joinLines (lineSlice lines w.startLine w.endLine)

theorem cuts_of_mapM {path : List Char} (hspec : ∀ s, (spec s).path = path) {fuel : Nat}
    (hfuel : stop < start + fuel)
    (h : ((windowStarts fuel start stop).mapM fun s =>
      chunkFromLines py (spec s) lines s (windowStop s stop)) = .ok ws) :
    Cuts lines start stop ws ∧ (ws ≠ [] → pathOk path = true) := by
  have hchunk {s : Nat} {w : CodeChunk}
      (hw : chunkFromLines py (spec s) lines s (windowStop s stop) = .ok w) :
      w = chunkOf py (spec s) lines s (windowStop s stop) ∧ pathOk path = true := by
    unfold chunkFromLines at hw
    rw [hspec] at hw
    split at hw
    · next hpath => exact ⟨(Except.ok.inj hw).symm, hpath⟩
    · cases hw
  have hall := Except.forall₂_of_mapM h
  have hws : ws = (windowStarts fuel start stop).map fun s =>
      chunkOf py (spec s) lines s (windowStop s stop) := by
    clear h
    generalize windowStarts fuel start stop = starts at hall
    induction hall with
    | nil => rfl
    | cons hw _ ih => rw [List.map_cons, (hchunk hw).1, ih]
  refine ⟨⟨hws ▸ tiles_windowStarts hfuel, fun w hw => ?_⟩, fun hne => ?_⟩
  · rw [hws] at hw
    obtain ⟨s, -, rfl⟩ := List.mem_map.mp hw
    rfl
  · obtain ⟨w, hw⟩ := List.exists_mem_of_ne_nil _ hne
    obtain ⟨s, -, hs⟩ := Except.exists_of_mem_mapM h w hw
    exact (hchunk hs).2

theorem mapM_ok {path : List Char} (hpath : pathOk path = true)
    (hspec : ∀ s, (spec s).path = path) (starts : List Nat) :
    ∃ ws, (starts.mapM fun s => chunkFromLines py (spec s) lines s (windowStop s stop)) =
      .ok ws := by
  induction starts with
  | nil => exact ⟨[], rfl⟩
  | cons s starts ih =>
      obtain ⟨ws, hws⟩ := ih
      refine ⟨chunkOf py (spec s) lines s (windowStop s stop) :: ws, ?_⟩
      rw [List.mapM_cons, Except.bind_eq_ok]
      refine ⟨_, by rw [chunkFromLines, hspec, if_pos hpath], ?_⟩
      rw [Except.bind_eq_ok]
      exact ⟨ws, hws, rfl⟩

end

/-! ## Lines -/

section

variable {text : List Char} {start stop : Nat}

theorem splitUniversal_crlf (cs : List Char) :
    splitUniversal ('\r' :: '\n' :: cs) = ([], universalLines cs) := by
  rw [splitUniversal]
  cases cs with
  | nil => simp [universalLines, splitUniversal]
  | cons d cs => simp [universalLines]

theorem splitUniversal_char {c : Char} {cs : List Char}
    (h : ∀ rest, c = '\r' → cs = '\n' :: rest → False) :
    splitUniversal (c :: cs) =
      if c = '\n' || c = '\r' then ([], universalLines cs)
      else (c :: (splitUniversal cs).1, (splitUniversal cs).2) := by
  rw [splitUniversal]
  · cases cs with
    | nil => simp [universalLines, splitUniversal]
    | cons d cs => simp [universalLines]
  · rintro rest rfl hcs
    exact h rest rfl hcs

theorem universalLines_ne {cs : List Char} (h : cs ≠ []) :
    universalLines cs = (splitUniversal cs).1 :: (splitUniversal cs).2 := if_neg h

theorem splitUniversal_length (cs : List Char) :
    (splitUniversal cs).2.length ≤ (splitLines cs).2.length := by
  induction hn : cs.length using Nat.strong_induction_on generalizing cs with
  | _ n ih =>
    have hlines (ds : List Char) (hds : ds.length < n) :
        (universalLines ds).length ≤ (linesOf ds).length := by
      by_cases hnil : ds = []
      · simp [hnil, universalLines, linesOf]
      · have := ih ds.length hds ds rfl
        rw [universalLines_ne hnil, linesOf_ne hnil]
        simpa using this
    rcases cs with - | ⟨c, cs⟩
    · exact le_refl 0
    · by_cases hcrlf : ∃ rest, c = '\r' ∧ cs = '\n' :: rest
      · obtain ⟨rest, rfl, rfl⟩ := hcrlf
        rw [splitUniversal_crlf, splitLines_crlf]
        exact hlines rest (by simp at hn; omega)
      · have hrest := ih cs.length (by simp at hn; omega) cs rfl
        have hcs := hlines cs (by simp at hn; omega)
        rw [splitUniversal_char fun rest hc hcs => hcrlf ⟨rest, hc, hcs⟩,
          splitLines_char fun rest hc hcs => hcrlf ⟨rest, hc, hcs⟩]
        by_cases hbreak : c = '\n' ∨ c = '\r'
        · have hline : isLineBreak c = true := by
            rcases hbreak with rfl | rfl <;> decide
          rw [if_pos (by simpa using hbreak), if_pos hline]
          exact hcs
        · rw [if_neg (by simpa using hbreak)]
          split
          · by_cases hnil : cs = []
            · simp [hnil, splitUniversal]
            · rw [linesOf_ne hnil, List.length_cons]
              dsimp only
              omega
          · exact hrest

theorem universalLines_length (cs : List Char) :
    (universalLines cs).length ≤ (linesOf cs).length := by
  by_cases hnil : cs = []
  · simp [hnil, universalLines, linesOf]
  · rw [universalLines_ne hnil, linesOf_ne hnil]
    simpa using splitUniversal_length cs

theorem lineSlice_get (lines : List (List Char)) (start stop i : Nat) :
    (lineSlice lines start stop)[i]? =
      if start - 1 + i < stop then lines[start - 1 + i]? else none := by
  rw [lineSlice, List.getElem?_drop, List.getElem?_take]

/-- Equal line by line from `start` to `stop`. -/
def Agree (lines lines' : List (List Char)) (start stop : Nat) : Prop :=
  ∀ l, start ≤ l → l ≤ stop → lines[l - 1]? = lines'[l - 1]?

theorem lineSlice_congr {lines lines' : List (List Char)} {a b : Nat} (hpos : 1 ≤ start)
    (ha : start ≤ a) (hb : b ≤ stop) (h : Agree lines lines' start stop) :
    lineSlice lines a b = lineSlice lines' a b := by
  refine List.ext_getElem? fun i => ?_
  rw [lineSlice_get, lineSlice_get]
  split
  · have := h (a - 1 + i + 1) (by omega) (by omega)
    simpa using this
  · rfl

/-- No line holds a line feed. -/
def Feedless (lines : List (List Char)) : Prop := ∀ line ∈ lines, '\n' ∉ line

theorem joinLines_inj {lines lines' : List (List Char)} (h : Feedless lines)
    (h' : Feedless lines') (hne : lines ≠ []) (hne' : lines' ≠ [])
    (heq : joinLines lines = joinLines lines') : lines = lines' := by
  have hsplit := List.splitOn_intercalate '\n' h hne
  rw [← List.splitOn_intercalate '\n' h' hne', ← hsplit]
  exact congrArg _ heq

end

theorem feedless_universal (cs : List Char) :
    '\n' ∉ (splitUniversal cs).1 ∧ Feedless (splitUniversal cs).2 := by
  induction hn : cs.length using Nat.strong_induction_on generalizing cs with
  | _ n ih =>
    have hlines (ds : List Char) (hds : ds.length < n) : Feedless (universalLines ds) := by
      by_cases hnil : ds = []
      · simp [hnil, universalLines, Feedless]
      · rw [universalLines_ne hnil]
        exact List.forall_mem_cons.mpr (ih ds.length hds ds rfl)
    rcases cs with - | ⟨c, cs⟩
    · simp [splitUniversal, Feedless]
    · by_cases hcrlf : ∃ rest, c = '\r' ∧ cs = '\n' :: rest
      · obtain ⟨rest, rfl, rfl⟩ := hcrlf
        rw [splitUniversal_crlf]
        exact ⟨by simp, hlines rest (by simp at hn; omega)⟩
      · rw [splitUniversal_char fun rest hc hcs => hcrlf ⟨rest, hc, hcs⟩]
        split
        · exact ⟨by simp, hlines cs (by simp at hn; omega)⟩
        · next hplain =>
            obtain ⟨hfirst, hrest⟩ := ih cs.length (by simp at hn; omega) cs rfl
            simp only [Bool.or_eq_true, decide_eq_true_eq, not_or] at hplain
            refine ⟨?_, hrest⟩
            rw [List.mem_cons, not_or]
            exact ⟨fun h => hplain.1 h.symm, hfirst⟩

theorem feedless_splitLines (cs : List Char) :
    '\n' ∉ (splitLines cs).1 ∧ Feedless (splitLines cs).2 := by
  induction hn : cs.length using Nat.strong_induction_on generalizing cs with
  | _ n ih =>
    have hlines (ds : List Char) (hds : ds.length < n) : Feedless (linesOf ds) := by
      by_cases hnil : ds = []
      · simp [hnil, linesOf, Feedless]
      · rw [linesOf_ne hnil]
        exact List.forall_mem_cons.mpr (ih ds.length hds ds rfl)
    rcases cs with - | ⟨c, cs⟩
    · simp [splitLines, Feedless]
    · by_cases hcrlf : ∃ rest, c = '\r' ∧ cs = '\n' :: rest
      · obtain ⟨rest, rfl, rfl⟩ := hcrlf
        rw [splitLines_crlf]
        exact ⟨by simp, hlines rest (by simp at hn; omega)⟩
      · rw [splitLines_char fun rest hc hcs => hcrlf ⟨rest, hc, hcs⟩]
        split
        · exact ⟨by simp, hlines cs (by simp at hn; omega)⟩
        · next hplain =>
            obtain ⟨hfirst, hrest⟩ := ih cs.length (by simp at hn; omega) cs rfl
            refine ⟨?_, hrest⟩
            rw [List.mem_cons, not_or]
            refine ⟨?_, hfirst⟩
            rintro rfl
            exact hplain (by decide)

theorem universalLines_feedless (cs : List Char) : Feedless (universalLines cs) := by
  unfold universalLines
  split
  · simp [Feedless]
  · exact List.forall_mem_cons.mpr (feedless_universal cs)

theorem linesOf_feedless (cs : List Char) : Feedless (linesOf cs) := by
  unfold linesOf
  split
  · simp [Feedless]
  · exact List.forall_mem_cons.mpr (feedless_splitLines cs)

theorem agree_of_slices {lines lines' : List (List Char)} {start stop : Nat}
    (h : Feedless lines) (h' : Feedless lines') (hpos : 1 ≤ start) (hle : start ≤ stop)
    (hstop : stop ≤ lines.length) (hstop' : stop ≤ lines'.length)
    (heq : joinLines (lineSlice lines start stop) = joinLines (lineSlice lines' start stop)) :
    Agree lines lines' start stop := by
  have hfeed {ls : List (List Char)} (hls : Feedless ls) : Feedless (lineSlice ls start stop) :=
    fun line hline => hls line (List.mem_of_mem_take (List.mem_of_mem_drop hline))
  have hne {ls : List (List Char)} (hls : stop ≤ ls.length) : lineSlice ls start stop ≠ [] := by
    refine List.ne_nil_of_length_pos ?_
    rw [lineSlice, List.length_drop, List.length_take]
    omega
  have hslices := joinLines_inj (hfeed h) (hfeed h') (hne hstop) (hne hstop') heq
  intro l hl hl'
  have hget := congrArg (·[l - start]?) hslices
  simp only [lineSlice_get] at hget
  rwa [if_pos (by omega), if_pos (by omega), show start - 1 + (l - start) = l - 1 by omega] at hget

/-! ## Pieces -/

section

variable {body : List Stmt} {count : Nat} {run : List Stmt}

theorem runs_split (hrun : run ∈ body.splitBy fun s t => s.loose == t.loose) :
    ∃ before after, body = before ++ run ++ after := by
  obtain ⟨before, after, hsplit⟩ := List.append_of_mem hrun
  refine ⟨before.flatten, after.flatten, ?_⟩
  rw [← List.flatten_splitBy (fun s t : Stmt => s.loose == t.loose) body, hsplit]
  simp

theorem run_loose (hrun : run ∈ body.splitBy fun s t => s.loose == t.loose) {s t : Stmt}
    (hs : s ∈ run) (ht : t ∈ run) : s.loose = t.loose := by
  have hchain := List.isChain_of_mem_splitBy hrun
  have : IsTrans Stmt fun s t => (s.loose == t.loose) = true :=
    ⟨fun a b c hab hbc => by
      rw [beq_iff_eq] at hab hbc ⊢
      exact hab.trans hbc⟩
  have hpair := hchain.pairwise
  by_cases hst : s = t
  · rw [hst]
  · rcases List.pairwise_iff_getElem.mp hpair with hget
    obtain ⟨i, hi, rfl⟩ := List.mem_iff_getElem.mp hs
    obtain ⟨j, hj, rfl⟩ := List.mem_iff_getElem.mp ht
    rcases Nat.lt_trichotomy i j with hij | rfl | hij
    · simpa using hget i j hi hj hij
    · rfl
    · exact (eq_of_beq (hget j i hj hi hij)).symm

theorem run_bounds (hdoc : Documented count body)
    (hrun : run ∈ body.splitBy fun s t => s.loose == t.loose) {first last s : Stmt}
    (hfirst : run.head? = some first) (hlast : run.getLast? = some last) (hs : s ∈ run) :
    first.lineno ≤ s.lineno ∧ nodeEndLine s ≤ nodeEndLine last := by
  obtain ⟨before, after, hsplit⟩ := runs_split hrun
  have hordered : run.Pairwise fun s t => nodeEndLine s ≤ t.lineno := by
    have := hdoc.ordered
    rw [hsplit] at this
    exact ((List.pairwise_append.mp (List.pairwise_append.mp this).1).2.1).imp And.left
  have hmem {t : Stmt} (ht : t ∈ run) : t ∈ body := by
    rw [hsplit]
    simp [ht]
  have hspan {t : Stmt} (ht : t ∈ run) := hdoc.spans t (hmem ht)
  constructor
  · obtain ⟨rest, rfl⟩ : ∃ rest, run = first :: rest := by
      cases run with
      | nil => cases hfirst
      | cons t rest => exact ⟨rest, by rw [Option.some.inj hfirst]⟩
    rcases List.mem_cons.mp hs with rfl | hs
    · exact le_refl _
    · have := (List.pairwise_cons.mp hordered).1 s hs
      have := (hspan (t := first) List.mem_cons_self).2.1
      omega
  · obtain ⟨front, rfl⟩ := List.getLast?_eq_some_iff.mp hlast
    rcases List.mem_append.mp hs with hs | hs
    · have := (List.pairwise_append.mp hordered).2.2 s hs last (by simp)
      have := (hspan (t := last) (by simp)).2.1
      omega
    · rw [List.mem_singleton.mp hs]

theorem mem_pieces {p : Piece} : p ∈ pieces body ↔
    ∃ run ∈ body.splitBy fun s t => s.loose == t.loose, p ∈ runPieces run := by
  rw [pieces, List.mem_flatMap]

theorem run_ends (hrun : run ∈ body.splitBy fun s t => s.loose == t.loose) :
    ∃ first last, run.head? = some first ∧ run.getLast? = some last ∧ first ∈ run ∧
      last ∈ run := by
  have hne := List.ne_nil_of_mem_splitBy hrun
  exact ⟨run.head hne, run.getLast hne, List.head?_eq_some_head hne,
    List.getLast?_eq_some_getLast hne, List.head_mem hne, List.getLast_mem hne⟩

theorem piece_cases {p : Piece} (hp : p ∈ pieces body) :
    (∃ run ∈ body.splitBy fun s t => s.loose == t.loose, ∃ first last, run.head? = some first ∧
      run.getLast? = some last ∧ first.loose = true ∧
      p = ⟨none, (first.lineno, nodeEndLine last), none⟩) ∨
    ∃ s ∈ body, s.loose = false ∧ p = ⟨topLevelSymbol s, (s.lineno, nodeEndLine s),
      if s.isDefinition then s.docstring else none⟩ := by
  obtain ⟨run, hrun, hp⟩ := mem_pieces.mp hp
  obtain ⟨first, last, hfirst, hlast, hmem, -⟩ := run_ends hrun
  rw [runPieces, hfirst, hlast] at hp
  dsimp only at hp
  split at hp
  · next hloose => exact .inl ⟨run, hrun, first, last, hfirst, hlast, hloose,
      List.mem_singleton.mp hp⟩
  · next hnamed =>
      obtain ⟨s, hs, rfl⟩ := List.mem_map.mp hp
      obtain ⟨before, after, hsplit⟩ := runs_split hrun
      refine .inr ⟨s, by rw [hsplit]; simp [hs], ?_, rfl⟩
      rw [run_loose hrun hs hmem]
      simpa using hnamed

theorem piece_span (hdoc : Documented count body) {p : Piece} (hp : p ∈ pieces body) :
    1 ≤ p.span.1 ∧ p.span.1 ≤ p.span.2 ∧ p.span.2 ≤ count := by
  rcases piece_cases hp with ⟨run, hrun, first, last, hfirst, hlast, -, rfl⟩ | ⟨s, hs, -, rfl⟩
  · obtain ⟨before, after, hsplit⟩ := runs_split hrun
    have hmem {t : Stmt} (ht : t ∈ run) : t ∈ body := by
      rw [hsplit]
      simp [ht]
    have hf := List.mem_of_head? hfirst
    have hl := List.mem_of_getLast? hlast
    have h₁ := hdoc.spans first (hmem hf)
    have h₂ := hdoc.spans last (hmem hl)
    have h₃ := run_bounds hdoc hrun hfirst hlast hf
    exact ⟨h₁.1, by dsimp only; omega, h₂.2.2⟩
  · exact hdoc.spans s hs

theorem piece_of_stmt (hdoc : Documented count body) {s : Stmt} (hs : s ∈ body) :
    ∃ p ∈ pieces body, p.span.1 ≤ s.lineno ∧ nodeEndLine s ≤ p.span.2 ∧
      (s.loose = false → p = ⟨topLevelSymbol s, (s.lineno, nodeEndLine s),
        if s.isDefinition then s.docstring else none⟩) := by
  have hflat := List.flatten_splitBy (fun s t : Stmt => s.loose == t.loose) body
  obtain ⟨run, hrun, hmem⟩ : ∃ run ∈ body.splitBy fun s t => s.loose == t.loose, s ∈ run := by
    rw [← hflat] at hs
    exact List.mem_flatten.mp hs
  obtain ⟨first, last, hfirst, hlast, hf, -⟩ := run_ends hrun
  have hpieces (p : Piece) (hp : p ∈ runPieces run) : p ∈ pieces body :=
    mem_pieces.mpr ⟨run, hrun, hp⟩
  have hsame := run_loose hrun hmem hf
  cases hloose : first.loose with
  | true =>
      refine ⟨⟨none, (first.lineno, nodeEndLine last), none⟩, hpieces _ ?_, ?_, ?_, ?_⟩
      · simp [runPieces, hfirst, hlast, hloose]
      · exact (run_bounds hdoc hrun hfirst hlast hmem).1
      · exact (run_bounds hdoc hrun hfirst hlast hmem).2
      · intro hnamed
        rw [hsame, hloose] at hnamed
        cases hnamed
  | false =>
      refine ⟨_, hpieces ⟨topLevelSymbol s, (s.lineno, nodeEndLine s),
        if s.isDefinition then s.docstring else none⟩ ?_, le_refl _, le_refl _, fun _ => rfl⟩
      simp only [runPieces, hfirst, hlast, hloose]
      exact List.mem_map_of_mem hmem

theorem loose_of_definition {s : Stmt} (h : s.isDefinition = true) : s.loose = false := by
  unfold Stmt.isDefinition at h
  unfold Stmt.loose topLevelSymbol
  cases hkind : s.kind with
  | classDef name => rfl
  | functionDef name => rfl
  | _ => simp [hkind] at h

theorem decorator_outside (hdoc : Documented count body) {s : Stmt} (hs : s ∈ body) {d : Nat}
    (hd : d ∈ s.decorators) {p : Piece} (hp : p ∈ pieces body) :
    ¬(p.span.1 ≤ d ∧ d ≤ p.span.2) := by
  obtain ⟨hdefinition, -, hbefore⟩ := hdoc.decorators s hs d hd
  rintro ⟨hlow, hhigh⟩
  have hapart {t : Stmt} (ht : t ∈ body) (hts : t ≠ s) : nodeEndLine t < d ∨ d < t.lineno := by
    obtain ⟨i, hi, rfl⟩ := List.mem_iff_getElem.mp hs
    obtain ⟨j, hj, rfl⟩ := List.mem_iff_getElem.mp ht
    have hget := List.pairwise_iff_getElem.mp hdoc.ordered
    rcases Nat.lt_trichotomy i j with hij | rfl | hij
    · have h₁ := (hget i j hi hj hij).1
      have h₂ := (hdoc.spans _ hs).2.1
      exact .inr (by omega)
    · exact absurd rfl hts
    · exact .inl ((hget j i hj hi hij).2 d hd)
  rcases piece_cases hp with ⟨run, hrun, first, last, hfirst, hlast, hloose, rfl⟩ | ⟨t, ht, -, rfl⟩
  · -- the run stands wholly before the definition or wholly behind it
    obtain ⟨before, after, hsplit⟩ := runs_split hrun
    have hf := List.mem_of_head? hfirst
    have hl := List.mem_of_getLast? hlast
    have hordered := hdoc.ordered
    have hout : s ∉ run := fun hin => by
      have hsame := run_loose hrun hin hf
      rw [hloose, loose_of_definition hdefinition] at hsame
      cases hsame
    rw [hsplit, List.mem_append, List.mem_append] at hs
    rw [hsplit] at hordered
    obtain ⟨hpre, -, hcross⟩ := List.pairwise_append.mp hordered
    dsimp only at hlow hhigh
    rcases hs with (hs | hs) | hs
    · have h₁ := ((List.pairwise_append.mp hpre).2.2 s hs first hf).1
      have h₂ := (hdoc.spans s (by rw [hsplit]; simp [hs])).2.1
      omega
    · exact hout hs
    · have := (hcross last (List.mem_append_right _ hl) s hs).2 d hd
      omega
  · by_cases hts : t = s
    · subst hts
      dsimp only at hlow
      omega
    · have := hapart ht hts
      dsimp only at hlow hhigh
      omega

end

/-! ## What a call returns -/

section

variable {py : Python} {path text : List Char} {chunks : List CodeChunk} {body : List Stmt}

/-- The statements the file is cut by. -/
def cutBody (py : Python) (path text : List Char) : Option (List Stmt) :=
  if languageForPath py path = "python".toList then namedBody py text else none

/-- The lines the fallback cuts. -/
def fallbackLines (text : List Char) : List (List Char) :=
  if linesOf text = [] then [[]] else linesOf text

theorem fallbackLines_pos (text : List Char) : 1 ≤ (fallbackLines text).length := by
  unfold fallbackLines
  split
  · exact le_refl 1
  · next hne => exact List.length_pos_of_ne_nil hne

theorem fallback_ok {language : List Char}
    (h : fallbackChunks py path language text = .ok chunks) :
    Cuts (fallbackLines text) 1 (fallbackLines text).length chunks ∧ pathOk path = true := by
  obtain ⟨hcuts, hpath⟩ := @cuts_of_mapM py
    (fun start =>
      { path, language, symbolName := none, symbolKind := .fallback
        signature := posixName path ++ ':' :: ((toString start).toList ++ '-' ::
          (toString (windowStop start (fallbackLines text).length)).toList)
        docstringSummary := [], astAvailable := false })
    (fallbackLines text) 1 (fallbackLines text).length chunks path (fun _ => rfl)
    ((fallbackLines text).length + 1) (by omega) h
  refine ⟨hcuts, hpath ?_⟩
  obtain ⟨w, hw, -⟩ := hcuts.tiles.covers (le_refl 1) (fallbackLines_pos text)
  exact List.ne_nil_of_mem hw

theorem fallback_returns (language : List Char) (hpath : pathOk path = true) :
    ∃ chunks, fallbackChunks py path language text = .ok chunks :=
  @mapM_ok py
    (fun start =>
      { path, language, symbolName := none, symbolKind := .fallback
        signature := posixName path ++ ':' :: ((toString start).toList ++ '-' ::
          (toString (windowStop start (fallbackLines text).length)).toList)
        docstringSummary := [], astAvailable := false })
    (fallbackLines text) (fallbackLines text).length path hpath (fun _ => rfl) _

/-- What a piece that was cut gives. -/
structure PieceCut (text path : List Char) (piece : Piece) (ws : List CodeChunk) : Prop where
  cuts : Cuts (linesOf text) piece.span.1 (min piece.span.2 (linesOf text).length) ws
  summarised : ∃ line, summary piece.docstring = .ok line
  valid : ws ≠ [] → pathOk path = true

theorem piece_ok {language : List Char} {piece : Piece} {ws : List CodeChunk}
    (h : pieceChunks py path language (linesOf text) piece = .ok ws) :
    PieceCut text path piece ws := by
  unfold pieceChunks at h
  obtain ⟨line, hline, h⟩ := Except.bind_eq_ok.mp h
  obtain ⟨hcuts, hpath⟩ := @cuts_of_mapM py (fun _ => _) (linesOf text) piece.span.1
    (min piece.span.2 (linesOf text).length) ws path (fun _ => rfl)
    (min piece.span.2 (linesOf text).length + 1) (by omega) h
  exact ⟨hcuts, ⟨line, hline⟩, hpath⟩

theorem piece_returns (language : List Char) {piece : Piece} (hpath : pathOk path = true)
    (hsummary : ∃ line, summary piece.docstring = .ok line) :
    ∃ ws, pieceChunks py path language (linesOf text) piece = .ok ws := by
  obtain ⟨line, hline⟩ := hsummary
  rw [pieceChunks, hline]
  exact @mapM_ok py _ (linesOf text) (min piece.span.2 (linesOf text).length) path hpath
    (fun _ => rfl) (windowStarts (min piece.span.2 (linesOf text).length + 1) piece.span.1
      (min piece.span.2 (linesOf text).length))

/-- The parts of a file that was cut by its statements. -/
def CutParts (text path : List Char) (body : List Stmt) (chunks : List CodeChunk) : Prop :=
  ∃ parts, List.Forall₂ (PieceCut text path) (pieces body) parts ∧ chunks = parts.flatten

theorem Documented.span_lines (hdoc : Documented (universalLines text).length body) {p : Piece}
    (hp : p ∈ pieces body) : min p.span.2 (linesOf text).length = p.span.2 := by
  have := (piece_span hdoc hp).2.2
  have := universalLines_length text
  omega

theorem forall₂_mem {α β : Type} {R : α → β → Prop} {xs : List α} {ys : List β}
    (h : List.Forall₂ R xs ys) : ∀ x ∈ xs, ∃ y ∈ ys, R x y := by
  induction h with
  | nil => simp
  | cons hxy _ ih =>
      intro x hx
      rcases List.mem_cons.mp hx with rfl | hx
      · exact ⟨_, List.mem_cons_self, hxy⟩
      · obtain ⟨y, hy, hr⟩ := ih x hx
        exact ⟨y, List.mem_cons_of_mem _ hy, hr⟩

theorem CutParts.piece (h : CutParts text path body chunks) {c : CodeChunk} (hc : c ∈ chunks) :
    ∃ p ∈ pieces body, ∃ ws, c ∈ ws ∧ PieceCut text path p ws := by
  obtain ⟨parts, hall, rfl⟩ := h
  obtain ⟨ws, hws, hmem⟩ := List.mem_flatten.mp hc
  obtain ⟨p, hp, hcut⟩ := forall₂_mem hall.flip ws hws
  exact ⟨p, hp, ws, hmem, hcut⟩

theorem CutParts.part (h : CutParts text path body chunks) {p : Piece} (hp : p ∈ pieces body) :
    ∃ ws, ws <:+: chunks ∧ PieceCut text path p ws := by
  obtain ⟨parts, hall, rfl⟩ := h
  obtain ⟨ws, hws, hcut⟩ := forall₂_mem hall p hp
  obtain ⟨before, after, rfl⟩ := List.append_of_mem hws
  exact ⟨ws, ⟨before.flatten, after.flatten, by simp⟩, hcut⟩

theorem named_of_cutBody (hbody : cutBody py path text = some body) :
    languageForPath py path = "python".toList ∧ py.parse text = some body ∧
      ∃ s ∈ body, s.loose = false := by
  unfold cutBody namedBody at hbody
  split at hbody
  · next hpython =>
      obtain ⟨hparse, hnamed⟩ := Option.filter_eq_some_iff.mp hbody
      exact ⟨hpython, hparse, by simpa using hnamed⟩
  · cases hbody

theorem CutParts.nonempty (hdoc : Documented (universalLines text).length body)
    (hnamed : ∃ s ∈ body, s.loose = false) (h : CutParts text path body chunks) :
    chunks ≠ [] := by
  obtain ⟨s, hs, -⟩ := hnamed
  obtain ⟨p, hp, -⟩ := piece_of_stmt hdoc hs
  obtain ⟨ws, hpart, hcut⟩ := h.part hp
  have hspan := piece_span hdoc hp
  have htiles := hcut.cuts.tiles
  rw [hdoc.span_lines hp] at htiles
  obtain ⟨w, hw, -⟩ := htiles.covers (le_refl _) hspan.2.1
  exact List.ne_nil_of_mem (hpart.subset hw)

theorem python_ok {language : List Char} (hbody : namedBody py text = some body)
    (h : pythonChunks py path language text = .ok chunks) : CutParts text path body chunks := by
  rw [pythonChunks, hbody] at h
  obtain ⟨parts, hparts, h⟩ := Except.bind_eq_ok.mp h
  refine ⟨parts, ?_, (Except.pure_eq_ok.mp h).symm⟩
  exact (Except.forall₂_of_mapM hparts).imp fun _ _ hcut => piece_ok hcut

theorem chunkSource_cut (hbody : cutBody py path text = some body)
    (hdoc : Documented (universalLines text).length body)
    (h : chunkSource py path text = .ok chunks) : CutParts text path body chunks := by
  obtain ⟨hpython, -, hnamed⟩ := named_of_cutBody hbody
  rw [cutBody, if_pos hpython] at hbody
  rw [chunkSource] at h
  rw [if_pos hpython] at h
  obtain ⟨cut, hcut, h⟩ := Except.bind_eq_ok.mp h
  have hparts := python_ok hbody hcut
  have hne := hparts.nonempty hdoc hnamed
  rw [if_neg (by simpa using hne)] at h
  rwa [← Except.pure_eq_ok.mp h]

theorem chunkSource_fallback (hbody : cutBody py path text = none) :
    chunkSource py path text = fallbackChunks py path (languageForPath py path) text := by
  rw [chunkSource]
  split
  · next hpython =>
      rw [cutBody, if_pos hpython] at hbody
      rw [pythonChunks, hbody]
      rfl
  · rfl

theorem chunkSource_returns (hbody : cutBody py path text = some body)
    (hdoc : Documented (universalLines text).length body) (hpath : pathOk path = true)
    (hsummary : ∀ p ∈ pieces body, ∃ line, summary p.docstring = .ok line) :
    ∃ chunks, chunkSource py path text = .ok chunks := by
  obtain ⟨hpython, -, hnamed⟩ := named_of_cutBody hbody
  rw [cutBody, if_pos hpython] at hbody
  have hparts : ∃ parts, (pieces body).mapM
      (pieceChunks py path (languageForPath py path) (linesOf text)) = .ok parts := by
    generalize pieces body = ps at hsummary
    induction ps with
    | nil => exact ⟨[], rfl⟩
    | cons p ps ih =>
        obtain ⟨ws, hws⟩ := @piece_returns py path text (languageForPath py path) p hpath
          (hsummary p List.mem_cons_self)
        obtain ⟨parts, hparts⟩ := ih fun q hq => hsummary q (List.mem_cons_of_mem _ hq)
        refine ⟨ws :: parts, ?_⟩
        rw [List.mapM_cons, hws, hparts]
        rfl
  obtain ⟨parts, hparts⟩ := hparts
  have hcut : pythonChunks py path (languageForPath py path) text = .ok parts.flatten := by
    rw [pythonChunks, hbody]
    dsimp only
    rw [hparts]
    rfl
  have hne := (python_ok hbody hcut).nonempty hdoc hnamed
  refine ⟨parts.flatten, ?_⟩
  rw [chunkSource]
  rw [if_pos hpython, hcut]
  change (if parts.flatten.isEmpty = true then _ else _) = _
  rw [if_neg (by simpa using hne)]
  rfl

end

/-! ## When every statement is indexed -/

/-- The lines of a statement, its decorators included. -/
def Stmt.Owns (s : Stmt) (l : Nat) : Prop :=
  l ≤ nodeEndLine s ∧ (s.lineno ≤ l ∨ ∃ d ∈ s.decorators, d ≤ l)

/-- The text of a chunk is the lines it names, and these are lines of the file. -/
def Exact (text : List Char) (c : CodeChunk) : Prop :=
  c.text = joinLines (lineSlice (universalLines text) c.startLine c.endLine) ∧
    (c.endLine ≤ (universalLines text).length ∨ text = [])

structure Chunked (py : Python) (path text : List Char) (chunks : List CodeChunk) : Prop where
  nonempty : chunks ≠ []
  bounded : ∀ c ∈ chunks, 1 ≤ c.startLine ∧ c.startLine ≤ c.endLine ∧
    c.endLine < c.startLine + maxChunkLines
  exact : ∀ c ∈ chunks, Exact text c
  covered : ∀ body, languageForPath py path = "python".toList → py.parse text = some body →
    ∀ s ∈ body, ∀ l, s.Owns l → ∃ c ∈ chunks, c.startLine ≤ l ∧ l ≤ c.endLine
  tiled : ∀ body, cutBody py path text = some body → ∀ s ∈ body, s.loose = false →
    ∃ ws, ws <:+: chunks ∧ Tiles (nodeEndLine s) s.lineno ws

/-- A definition with a docstring of white space only. -/
def Stmt.BlankDocstring (s : Stmt) : Prop :=
  s.isDefinition = true ∧ ∃ docstring, s.docstring = some docstring ∧
    Text.stripChars docstring = []

/-- The path is valid, and where the file is cut by its statements none is decorated, no docstring
is blank and both kinds of lines agree on every piece; else both kinds of lines are the same. -/
def Regular (py : Python) (path text : List Char) : Prop :=
  pathOk path = true ∧
    match cutBody py path text with
    | none => linesOf text = universalLines text
    | some body => (∀ s ∈ body, s.decorators = [] ∧ ¬s.BlankDocstring) ∧
        ∀ p ∈ pieces body, Agree (linesOf text) (universalLines text) p.span.1 p.span.2

section

variable {py : Python} {path text : List Char} {chunks : List CodeChunk} {body : List Stmt}

theorem summary_ok_iff (docstring : List Char) :
    (∃ line, summary (some docstring) = .ok line) ↔ Text.stripChars docstring ≠ [] := by
  unfold summary linesOf
  dsimp only
  by_cases hblank : Text.stripChars docstring = []
  · rw [if_pos hblank]
    simp [hblank]
  · rw [if_neg hblank]
    simp [hblank]

theorem owns_pos (hdoc : Documented (universalLines text).length body) {s : Stmt}
    (hs : s ∈ body) {l : Nat} (hl : s.Owns l) : 1 ≤ l := by
  rcases hl.2 with hle | ⟨d, hd, hle⟩
  · exact (hdoc.spans s hs).1.trans hle
  · exact (hdoc.decorators s hs d hd).2.1.trans hle

theorem regular_of_cut (hbody : cutBody py path text = some body)
    (hdoc : Documented (universalLines text).length body)
    (hrun : chunkSource py path text = .ok chunks) (h : Chunked py path text chunks) :
    Regular py path text := by
  have hparts := chunkSource_cut hbody hdoc hrun
  obtain ⟨hpython, hparse, -⟩ := named_of_cutBody hbody
  refine ⟨?_, ?_⟩
  · obtain ⟨c, hc⟩ := List.exists_mem_of_ne_nil _ h.nonempty
    obtain ⟨p, -, ws, hw, hcut⟩ := hparts.piece hc
    exact hcut.valid (List.ne_nil_of_mem hw)
  · rw [hbody]
    refine ⟨fun s hs => ⟨?_, ?_⟩, fun p hp => ?_⟩
    · rw [List.eq_nil_iff_forall_not_mem]
      intro d hd
      have hbefore := (hdoc.decorators s hs d hd).2.2
      have hspan := (hdoc.spans s hs).2.1
      obtain ⟨c, hc, hlow, hhigh⟩ := h.covered body hpython hparse s hs d
        ⟨by omega, .inr ⟨d, hd, le_refl d⟩⟩
      obtain ⟨p, hp, ws, hw, hcut⟩ := hparts.piece hc
      obtain ⟨hstart, -, hstop, -⟩ := hcut.cuts.tiles.inside c hw
      exact decorator_outside hdoc hs hd hp ⟨by omega, by omega⟩
    · rintro ⟨hdefinition, docstring, hdocstring, hblank⟩
      obtain ⟨p, hp, -, -, hown⟩ := piece_of_stmt hdoc hs
      obtain ⟨ws, -, hcut⟩ := hparts.part hp
      have hsummary := hcut.summarised
      rw [hown (loose_of_definition hdefinition)] at hsummary
      dsimp only at hsummary
      rw [if_pos hdefinition, hdocstring] at hsummary
      exact (summary_ok_iff docstring).mp hsummary hblank
    · obtain ⟨ws, hpart, hcut⟩ := hparts.part hp
      have hspan := piece_span hdoc hp
      have hcuts := hcut.cuts
      rw [hdoc.span_lines hp] at hcuts
      intro l hl hl'
      obtain ⟨w, hw, hlow, hhigh⟩ := hcuts.tiles.covers hl hl'
      obtain ⟨hstart, hforward, hstop, -⟩ := hcuts.tiles.inside w hw
      obtain ⟨hexact, hend⟩ := h.exact w (hpart.subset hw)
      have hlength := universalLines_length text
      refine agree_of_slices (linesOf_feedless text) (universalLines_feedless text)
        (by omega) hforward (by omega) (by omega) ?_ l hlow hhigh
      rw [← hcuts.slices w hw, hexact]

theorem regular_of_fallback (hbody : cutBody py path text = none)
    (hrun : chunkSource py path text = .ok chunks) (h : Chunked py path text chunks) :
    Regular py path text := by
  rw [chunkSource_fallback hbody] at hrun
  obtain ⟨hcuts, hpath⟩ := fallback_ok hrun
  refine ⟨hpath, ?_⟩
  rw [hbody]
  dsimp only
  by_cases htext : text = []
  · rw [htext]
    rfl
  · have hne : linesOf text ≠ [] := by
      rw [linesOf_ne htext]
      exact List.cons_ne_nil _ _
    rw [fallbackLines, if_neg hne] at hcuts
    have hends (w : CodeChunk) (hw : w ∈ chunks) : w.endLine ≤ (universalLines text).length :=
      (h.exact w hw).2.resolve_right htext
    have hpos := List.length_pos_of_ne_nil hne
    have hlength := universalLines_length text
    have hlast : (linesOf text).length ≤ (universalLines text).length := by
      obtain ⟨w, hw, -, hhigh⟩ := hcuts.tiles.covers hpos (le_refl _)
      exact hhigh.trans (hends w hw)
    refine List.ext_getElem? fun i => ?_
    by_cases hi : i < (linesOf text).length
    · obtain ⟨w, hw, hlow, hhigh⟩ := hcuts.tiles.covers (show 1 ≤ i + 1 by omega) hi
      obtain ⟨hstart, hforward, hstop, -⟩ := hcuts.tiles.inside w hw
      have hagree := agree_of_slices (linesOf_feedless text) (universalLines_feedless text)
        hstart hforward hstop (hends w hw)
        ((hcuts.slices w hw).symm.trans (h.exact w hw).1) (i + 1) hlow hhigh
      simpa using hagree
    · rw [List.getElem?_eq_none (by omega), List.getElem?_eq_none (by omega)]

theorem chunked_of_cut (hbody : cutBody py path text = some body)
    (hdoc : Documented (universalLines text).length body) (h : Regular py path text) :
    ∃ chunks, chunkSource py path text = .ok chunks ∧ Chunked py path text chunks := by
  obtain ⟨hpath, hregular⟩ := h
  rw [hbody] at hregular
  obtain ⟨hstmts, hagree⟩ := hregular
  obtain ⟨hpython, hparse, hnamed⟩ := named_of_cutBody hbody
  have hsummary : ∀ p ∈ pieces body, ∃ line, summary p.docstring = .ok line := by
    intro p hp
    rcases piece_cases hp with ⟨-, -, -, -, -, -, -, rfl⟩ | ⟨s, hs, -, rfl⟩
    · exact ⟨[], rfl⟩
    · dsimp only
      split
      · next hdefinition =>
          cases hdocstring : s.docstring with
          | none => exact ⟨[], rfl⟩
          | some docstring =>
              refine (summary_ok_iff docstring).mpr fun hblank => ?_
              exact (hstmts s hs).2 ⟨hdefinition, docstring, hdocstring, hblank⟩
      · exact ⟨[], rfl⟩
  obtain ⟨chunks, hrun⟩ := chunkSource_returns hbody hdoc hpath hsummary
  have hparts := chunkSource_cut hbody hdoc hrun
  have hlength := universalLines_length text
  refine ⟨chunks, hrun, hparts.nonempty hdoc hnamed, fun c hc => ?_, fun c hc => ?_, ?_, ?_⟩
  · obtain ⟨p, hp, ws, hw, hcut⟩ := hparts.piece hc
    obtain ⟨hstart, hforward, -, hbounded⟩ := hcut.cuts.tiles.inside c hw
    have := (piece_span hdoc hp).1
    exact ⟨by omega, hforward, hbounded⟩
  · obtain ⟨p, hp, ws, hw, hcut⟩ := hparts.piece hc
    obtain ⟨hstart, hforward, hstop, -⟩ := hcut.cuts.tiles.inside c hw
    have hspan := piece_span hdoc hp
    refine ⟨?_, .inl (by omega)⟩
    rw [hcut.cuts.slices c hw]
    exact congrArg joinLines
      (lineSlice_congr hspan.1 hstart (hstop.trans (min_le_left _ _)) (hagree p hp))
  · intro body' _ hparse' s hs l hl
    obtain rfl := Option.some.inj (hparse.symm.trans hparse')
    obtain ⟨p, hp, hlow, hhigh, -⟩ := piece_of_stmt hdoc hs
    obtain ⟨ws, hpart, hcut⟩ := hparts.part hp
    have hcuts := hcut.cuts
    rw [hdoc.span_lines hp] at hcuts
    have hbegins : s.lineno ≤ l := by
      rcases hl.2 with hle | ⟨d, hd, -⟩
      · exact hle
      · rw [(hstmts s hs).1] at hd
        cases hd
    obtain ⟨w, hw, hin⟩ := hcuts.tiles.covers (hlow.trans hbegins) (hl.1.trans hhigh)
    exact ⟨w, hpart.subset hw, hin⟩
  · intro body' hbody' s hs hown
    obtain rfl := Option.some.inj (hbody.symm.trans hbody')
    obtain ⟨p, hp, -, -, hpiece⟩ := piece_of_stmt hdoc hs
    obtain ⟨ws, hpart, hcut⟩ := hparts.part hp
    have htiles := hcut.cuts.tiles
    rw [hdoc.span_lines hp, hpiece hown] at htiles
    exact ⟨ws, hpart, htiles⟩

theorem chunked_of_fallback (hbody : cutBody py path text = none)
    (hdoc : ∀ body, py.parse text = some body →
      Documented (universalLines text).length body) (h : Regular py path text) :
    ∃ chunks, chunkSource py path text = .ok chunks ∧ Chunked py path text chunks := by
  obtain ⟨hpath, hlines⟩ := h
  rw [hbody] at hlines
  dsimp only at hlines
  rw [chunkSource_fallback hbody]
  obtain ⟨chunks, hrun⟩ := @fallback_returns py path text (languageForPath py path) hpath
  obtain ⟨hcuts, -⟩ := fallback_ok hrun
  obtain ⟨first, hfirst, -⟩ := hcuts.tiles.covers (le_refl 1) (fallbackLines_pos text)
  refine ⟨chunks, hrun, List.ne_nil_of_mem hfirst, fun c hc => ?_, fun c hc => ?_, ?_, ?_⟩
  · obtain ⟨hstart, hforward, -, hbounded⟩ := hcuts.tiles.inside c hc
    exact ⟨hstart, hforward, hbounded⟩
  · obtain ⟨hstart, hforward, hstop, -⟩ := hcuts.tiles.inside c hc
    by_cases htext : text = []
    · subst htext
      refine ⟨?_, .inr rfl⟩
      have hone : (fallbackLines []).length = 1 := rfl
      have h₁ : c.startLine = 1 := by omega
      have h₂ : c.endLine = 1 := by omega
      rw [hcuts.slices c hc, h₁, h₂]
      rfl
    · have hne : linesOf text ≠ [] := by
        rw [linesOf_ne htext]
        exact List.cons_ne_nil _ _
      have hsame : fallbackLines text = universalLines text := by
        rw [fallbackLines, if_neg hne, hlines]
      rw [hsame] at hcuts hstop
      exact ⟨hcuts.slices c hc, .inl hstop⟩
  · intro body _ hparse s hs l hl
    have hspan := (hdoc body hparse).spans s hs
    have hpos := owns_pos (hdoc body hparse) hs hl
    have hend := hl.1
    have hcount : (universalLines text).length ≤ (fallbackLines text).length := by
      unfold fallbackLines
      split
      · next hnil =>
          rw [← hlines, hnil]
          exact Nat.zero_le _
      · rw [hlines]
    exact hcuts.tiles.covers hpos (by omega)
  · intro body hbody'
    rw [hbody] at hbody'
    cases hbody'

/-- Every line of every statement is in a chunk, each chunk is at most eighty lines and exactly
those lines of the file, and nothing is raised, exactly for a regular file. -/
theorem every_statement_indexed
    (hdoc : ∀ body, py.parse text = some body → Documented (universalLines text).length body) :
    (∃ chunks, chunkSource py path text = .ok chunks ∧ Chunked py path text chunks) ↔
      Regular py path text := by
  cases hbody : cutBody py path text with
  | none =>
      refine ⟨?_, chunked_of_fallback hbody hdoc⟩
      rintro ⟨chunks, hrun, h⟩
      exact regular_of_fallback hbody hrun h
  | some body =>
      have hspans := hdoc body (named_of_cutBody hbody).2.1
      refine ⟨?_, chunked_of_cut hbody hspans⟩
      rintro ⟨chunks, hrun, h⟩
      exact regular_of_cut hbody hspans hrun h

end

/-! ## A plain module, and one with an empty docstring -/

def samplePython (body : List Stmt) : Python := ⟨id, fun _ => some body, fun _ => "0"⟩

def sampleAssign : Stmt := ⟨.assign [some "x"], 1, some 1, [], none⟩

/-- `def f():` and an empty string. -/
def sampleEmpty : Stmt := ⟨.functionDef "f", 1, some 2, [], some []⟩

theorem every_statement_indexed_sample :
    ∃ chunks, chunkSource (samplePython [sampleAssign]) "a.py".toList "x = 1\n".toList =
        .ok chunks ∧
      Chunked (samplePython [sampleAssign]) "a.py".toList "x = 1\n".toList chunks := by
  have hlines : linesOf "x = 1\n".toList = universalLines "x = 1\n".toList := by decide
  have hdoc : Documented (universalLines "x = 1\n".toList).length [sampleAssign] :=
    ⟨by decide, by decide, List.pairwise_singleton _ _⟩
  refine (every_statement_indexed fun body hbody => ?_).mpr ⟨by decide, ?_⟩
  · obtain rfl := Option.some.inj hbody
    exact hdoc
  · have hbody : cutBody (samplePython [sampleAssign]) "a.py".toList "x = 1\n".toList =
        some [sampleAssign] := by decide
    rw [hbody, hlines]
    refine ⟨fun s hs => ?_, fun _ _ _ _ _ => rfl⟩
    obtain rfl := List.mem_singleton.mp hs
    exact ⟨rfl, fun h => absurd h.1 (by decide)⟩

/-- An empty docstring raises what the build does not catch. -/
theorem empty_docstring_aborts :
    Documented (universalLines "def f():\n    ''\n".toList).length [sampleEmpty] ∧
      chunkSource (samplePython [sampleEmpty]) "a.py".toList "def f():\n    ''\n".toList =
        .error .indexError ∧
      Fault.abortsBuild .indexError = true ∧
      ¬∃ chunks, chunkSource (samplePython [sampleEmpty]) "a.py".toList
          "def f():\n    ''\n".toList = .ok chunks ∧
        Chunked (samplePython [sampleEmpty]) "a.py".toList "def f():\n    ''\n".toList chunks := by
  have hraises : chunkSource (samplePython [sampleEmpty]) "a.py".toList
      "def f():\n    ''\n".toList = .error .indexError := by rfl
  refine ⟨⟨by decide, by decide, List.pairwise_singleton _ _⟩, hraises, rfl, ?_⟩
  rintro ⟨chunks, hrun, -⟩
  rw [hraises] at hrun
  cases hrun

end TrwMcp.CodeIndex
