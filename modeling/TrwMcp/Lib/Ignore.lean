import Mathlib.Data.List.DropRight
import Mathlib.Data.List.Infix

/-!
# Ignore files

What the patterns of a gitignore file say of the paths below its directory: a comment says nothing,
a pattern with a slash before its end is anchored, the last pattern that matches decides, and
nothing below an ignored directory is taken back. Wildcards are the parameter `wild`; a pattern
without any matches itself.
-/

namespace TrwMcp.Lib.Ignore

/-- `wild pattern text`: the matcher of one pattern. -/
abbrev Wild := List Char → List Char → Bool

def special (c : Char) : Bool := c ∈ ['*', '?', '[', '\\']

/-- A pattern without special characters matches its own text only. -/
def LiteralOk (wild : Wild) : Prop :=
  ∀ pattern text, pattern.any special = false → wild pattern text = decide (pattern = text)

structure Pattern where
  negated : Bool
  dirOnly : Bool
  anchored : Bool
  text : List Char
  deriving DecidableEq, Repr

/-- Spaces at the end do not count, unless a backslash stands before them. -/
@[grind =] def trimSpaces : List Char → List Char → List Char
  | [], _ => []
  | ['\\'], pending => pending ++ ['\\']
  | '\\' :: c :: cs, pending => pending ++ '\\' :: c :: trimSpaces cs []
  | c :: cs, pending =>
      if c = ' ' then trimSpaces cs (' ' :: pending) else pending ++ c :: trimSpaces cs []

def dropReturn (line : List Char) : List Char :=
  if line.getLast? = some '\r' then line.dropLast else line

/-- A pattern after the `!` it may start with. -/
def pattern (negated : Bool) (body : List Char) : Pattern :=
  let dirOnly := body.getLast? = some '/'
  let core := if dirOnly then body.dropLast else body
  { negated, dirOnly, anchored := core.contains '/'
    text := if core.head? = some '/' then core.tail else core }

def parseLine (line : List Char) : Option Pattern :=
  match trimSpaces (dropReturn line) [] with
  | [] => none
  | '#' :: _ => none
  | '!' :: body => some (pattern true body)
  | body => some (pattern false body)

def patterns (text : List Char) : List Pattern := (text.splitOn '\n').filterMap parseLine

abbrev Path := List (List Char)

def joined (path : Path) : List Char := ['/'].intercalate path

section

variable (wild : Wild)

def Pattern.matches (p : Pattern) (path : Path) (isDir : Bool) : Bool :=
  (isDir || !p.dirOnly) &&
    if p.anchored then wild p.text (joined path) else wild p.text (path.getLast?.getD [])

/-- Whether the last pattern that matches excludes the path. -/
def excluded (ps : List Pattern) (path : Path) (isDir : Bool) : Bool :=
  (ps.reverse.find? fun p => p.matches wild path isDir).any (!·.negated)

/-- The directories a path lies in. -/
def parents (path : Path) : List Path := path.inits.filter fun dir => dir ≠ [] && dir ≠ path

def ignored (ps : List Pattern) (path : Path) (isDir : Bool) : Bool :=
  (parents path).any (excluded wild ps · true) || excluded wild ps path isDir

end

section

variable {wild : Wild} {ps qs : List Pattern} {path : Path} {isDir : Bool}

theorem patterns_append_line (a b : List Char) :
    patterns (a ++ '\n' :: b) = patterns a ++ patterns b := by
  unfold patterns
  rw [List.splitOn_append_cons_self, List.filterMap_append]

theorem patterns_nil : patterns [] = [] := rfl

/-- Patterns that do not match change nothing. -/
theorem excluded_append_of_not_matches (h : ∀ q ∈ qs, q.matches wild path isDir = false) :
    excluded wild (ps ++ qs) path isDir = excluded wild ps path isDir := by
  have hnone : qs.reverse.find? (fun p => p.matches wild path isDir) = none := by
    rw [List.find?_eq_none]
    intro q hq
    simp [h q (List.mem_reverse.mp hq)]
  rw [excluded, excluded, List.reverse_append, List.find?_append, hnone, Option.none_or]

/-- Among plain patterns at the end one that matches excludes. -/
theorem excluded_append_of_matches (hplain : ∀ q ∈ qs, q.negated = false)
    (h : ∃ q ∈ qs, q.matches wild path isDir = true) :
    excluded wild (ps ++ qs) path isDir = true := by
  obtain ⟨q, hq, hmatch⟩ := h
  obtain ⟨r, hr⟩ : ∃ r, qs.reverse.find? (fun p => p.matches wild path isDir) = some r := by
    rw [← Option.isSome_iff_exists, List.find?_isSome]
    exact ⟨q, List.mem_reverse.mpr hq, hmatch⟩
  have hmem := List.mem_reverse.mp (List.mem_of_find?_eq_some hr)
  rw [excluded, List.reverse_append, List.find?_append, hr, Option.some_or]
  simp [hplain r hmem]

theorem ignored_append_of_not_matches (h : ∀ q ∈ qs, q.matches wild path isDir = false)
    (hparents : ∀ dir ∈ parents path, ∀ q ∈ qs, q.matches wild dir true = false) :
    ignored wild (ps ++ qs) path isDir = ignored wild ps path isDir := by
  unfold ignored
  rw [excluded_append_of_not_matches h]
  congr 1
  rw [Bool.eq_iff_iff, List.any_eq_true, List.any_eq_true]
  refine exists_congr fun dir => and_congr_right fun hdir => ?_
  rw [excluded_append_of_not_matches (hparents dir hdir)]

theorem ignored_append_of_matches (hplain : ∀ q ∈ qs, q.negated = false)
    (h : ∃ q ∈ qs, q.matches wild path isDir = true) :
    ignored wild (ps ++ qs) path isDir = true := by
  rw [ignored, excluded_append_of_matches hplain h, Bool.or_true]

end

end TrwMcp.Lib.Ignore
