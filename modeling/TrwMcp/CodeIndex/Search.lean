import TrwMcp.CodeIndex.Chunking
import TrwMcp.Lib.TopK
import Mathlib.Data.Prod.Lex
import Mathlib.Data.List.Lex
import Mathlib.Data.Char
import Mathlib.Algebra.Order.Ring.Rat

/-!
# Searching the chunk store

A query asks SQLite for the rows that may match, scores each of them, and keeps the best in a heap.
`LIKE` folds the case of ASCII letters only; the score lowers every letter.
-/

namespace TrwMcp.CodeIndex

open Lib

/-- `text.lower()`, and the double nearest to a rational. -/
structure PyText where
  lower : List Char → List Char
  double : ℚ → ℚ

/-- The budgets a query reads. -/
structure SearchBudgets where
  queryMaxChars : Nat
  queryMaxRows : Nat
  likeScanMaxBytes : Nat

/-! ## LIKE -/

/-- What `LIKE … ESCAPE '\'` answers for a pattern and a text. -/
@[grind =] def like : List Char → List Char → Bool
  | [], cs => cs.isEmpty
  | ['\\'], _ => false
  | '\\' :: e :: ps, cs =>
      match cs with
      | [] => false
      | c :: cs => e.toLower = c.toLower && like ps cs
  | '%' :: ps, cs => cs.tails.any (like ps)
  | '_' :: ps, cs =>
      match cs with
      | [] => false
      | _ :: cs => like ps cs
  | p :: ps, cs =>
      match cs with
      | [] => false
      | c :: cs => p.toLower = c.toLower && like ps cs

/-- `_escape_like` -/
def escapeLike (text : List Char) : List Char :=
  text.flatMap fun c => if c = '\\' ∨ c = '%' ∨ c = '_' then ['\\', c] else [c]

/-- `_bounded_substr`: the characters that are whole within the first bytes. -/
@[grind =] def boundedSubstr : Nat → List Char → List Char
  | _, [] => []
  | n, c :: cs => if c.utf8Size ≤ n then c :: boundedSubstr (n - c.utf8Size) cs else []

/-- `_LIKE_SCANNED_COLUMNS` -/
def likeScannedColumns (chunk : CodeChunk) : List (Option (List Char)) :=
  [chunk.symbolName.map String.toList, some chunk.signature, some chunk.docstringSummary,
    some chunk.text, some chunk.path]

/-- One bounded column against one pattern; `NULL` matches nothing. -/
def likeColumn (maxBytes : Nat) (text : List Char) (column : Option (List Char)) : Bool :=
  column.any fun value =>
    like ('%' :: (escapeLike text ++ ['%'])) (boundedSubstr maxBytes value)

/-- `_scope` -/
def inScope (path : Option (List Char)) (chunk : CodeChunk) : Bool :=
  path.all fun path => chunk.path = path || like (escapeLike path ++ ['/', '%']) chunk.path

/-! ## Scores -/

section

variable (py : PyText)

/-- `[A-Za-z0-9_]` -/
def isTokenChar (c : Char) : Bool := c.isAlphanum || c = '_'

/-- `_terms`, as the tokens that are counted. -/
def terms (text : List Char) : List (List Char) :=
  ((text.splitOnP fun c => !isTokenChar c).filter (· ≠ [])).map py.lower

/-- The text a chunk's terms are counted in. -/
def haystack (chunk : CodeChunk) : List Char :=
  ((chunk.symbolName.getD "").toList ++ ' ' :: chunk.signature) ++ ' ' ::
    (chunk.docstringSummary ++ ' ' :: chunk.text)

/-- What one term of the query adds to a score. -/
def termScore (queryTerms : List (List Char)) (chunk : CodeChunk) (term : List Char) : Nat :=
  let count := (terms py (haystack chunk)).count term
  (if count ≠ 0 then min count (queryTerms.count term) * 2 else 0) +
    (if chunk.symbolName.any fun name => decide (term <:+: py.lower name.toList) then 3 else 0) +
    (if term <:+: py.lower chunk.path then 1 else 0)

/-- `_lexical_score` -/
def lexicalScore (queryTerms : List (List Char)) (chunk : CodeChunk) : Nat :=
  (queryTerms.dedup.map (termScore py queryTerms chunk)).sum

/-- A query for tokens, or for a symbol. -/
inductive Query where
  | lexical (text : List Char)
  | symbol (text : List Char)

variable (budgets : SearchBudgets)

def Query.texts : Query → List (List Char)
  | .lexical text => (terms py (text.take budgets.queryMaxChars)).dedup
  | .symbol text => [py.lower (Text.stripChars (text.take budgets.queryMaxChars))]

/-- The columns a query is matched in. -/
def Query.columns : Query → CodeChunk → List (Option (List Char))
  | .lexical _, chunk => likeScannedColumns chunk
  | .symbol _, chunk => [chunk.symbolName.map String.toList]

/-- The `WHERE` clause of a query. -/
def Query.candidate (q : Query) (path : Option (List Char)) (chunk : CodeChunk) : Bool :=
  ((q.texts py budgets).any fun text =>
      (q.columns chunk).any (likeColumn budgets.likeScanMaxBytes text)) && inScope path chunk

/-- The `score` a query gives a chunk. -/
def Query.score : Query → CodeChunk → Option ℚ
  | .lexical text, chunk =>
      let value := lexicalScore py (terms py (text.take budgets.queryMaxChars)) chunk
      if 0 < value then some value else none
  | .symbol text, chunk =>
      let needle := py.lower (Text.stripChars (text.take budgets.queryMaxChars))
      chunk.symbolName.bind fun name =>
        let candidate := py.lower name.toList
        if candidate = needle then some 100
        else if needle <:+: candidate then
          some (py.double (50 + py.double (needle.length / candidate.length)))
        else none

end

/-! ## The heap -/

structure CodeSearchHit where
  chunk : CodeChunk
  score : ℚ
  deriving DecidableEq

/-- The heap's key: the greater it is, the better the hit. -/
def CodeSearchHit.key (hit : CodeSearchHit) : ℚ ×ₗ (List Char)ᵒᵈ ×ₗ ℕᵒᵈ :=
  toLex (hit.score, toLex (OrderDual.toDual hit.chunk.path, OrderDual.toDual hit.chunk.startLine))

/-- `_bounded_top_k` -/
def boundedTopK (topK : Int) : Nat := (max 1 (min topK 50)).toNat

inductive SearchError where
  | queryMaxRows
  deriving DecidableEq

/-- `_top_hits` -/
def topHits (score : CodeChunk → Option ℚ) (topK : Int) (budgets : SearchBudgets)
    (rows : List CodeChunk) : Except SearchError (List CodeSearchHit) :=
  if budgets.queryMaxRows < rows.length then throw .queryMaxRows
  else
    let hits := rows.filterMap fun chunk => (score chunk).map (CodeSearchHit.mk chunk)
    let heap := hits.foldl (keepBest CodeSearchHit.key (boundedTopK topK)) []
    pure (heap.insertionSort fun a b => b.key ≤ a.key)

end TrwMcp.CodeIndex
