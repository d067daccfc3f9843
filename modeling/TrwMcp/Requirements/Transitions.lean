import TrwMcp.Requirements.FrontmatterRuns
import TrwMcp.Scoring.ReceiptRuns

/-!
# Status transitions in a diff

The delivery gate reads a unified diff line by line for PRDs that gain a status of the implemented
family. A line scan stands in for the frontmatter parser.
-/

namespace TrwMcp.Requirements.Transitions

open Frontmatter Intent Lib Regex Scheduling Scoring Text

/-- `PRDS_DIR` -/
def prdsDir : List Char := "docs/requirements-aare-f/prds".toList

/-- `_PLUS_FILE_RE`: group 1, stripped. -/
def plusFile (line : List Char) : Option (List Char) :=
  let rest := line.drop 3
  if ['+', '+', '+'].isPrefixOf line ∧ rest.head?.any isSpace then
    match stripChars rest with
    | [] => if 2 ≤ rest.length then some [] else none
    | 'b' :: '/' :: c :: cs => some (stripChars (c :: cs))
    | path => some path
  else none

/-- What is left after `status:`, up to case; the long s is an s. -/
def afterStatus (cs : List Char) : Option (List Char) :=
  (afterLiteral "status:".toList ((cs.take 7).map fun c => if c = '\u017F' then 's' else c)).map
    fun _ => cs.drop 7

def implementedFamily : List (List Char) :=
  ["implemented".toList, "done".toList, "delivered".toList, "complete".toList]

/-- `Path(path).stem` -/
def stem (path : List Char) : List Char :=
  let name := ((path.splitOn '/').filter fun part => part ≠ [] ∧ part ≠ ['.']).getLast?.getD []
  let base := name.rdropWhile (· ≠ '.')
  if 1 < base.length ∧ base.length < name.length then base.dropLast else name

/-- `line.startswith(("diff --git", "--- "))` -/
def startsFile (line : List Char) : Bool :=
  "diff --git".toList.isPrefixOf line || "--- ".toList.isPrefixOf line

section

variable {κ α : Type} (yaml : Yaml κ α) (isDigit : Char → Bool)

/-- `_ADDED_STATUS_RE` -/
def addedStatus : List Char → Bool
  | '+' :: cs => (afterStatus (cs.dropWhile isSpace)).any fun rest =>
      implementedFamily.any fun word => (afterLiteral word (rest.dropWhile isSpace)).any fun tail =>
        !tail.head?.any yaml.isWord
  | _ => false

/-- `_PRD_ID_RE` -/
def isPrdId (name : List Char) : Bool :=
  let rest := name.drop 4
  let digits := (rest.dropWhile isUpper).drop 1
  "PRD-".toList.isPrefixOf name && rest.head?.any isUpper &&
    (rest.dropWhile isUpper).head? = some '-' && digits.head?.any isDigit

/-- One line of the loop, from `current_file` and `prd_ids`. -/
def detectLine (s : Option (List Char) × List (List Char)) (line : List Char) :
    Option (List Char) × List (List Char) :=
  match plusFile line with
  | some path => (some path, s.2)
  | none =>
      if startsFile line then (none, s.2)
      else
        match s.1 with
        | none => s
        | some path =>
            if prdsDir <:+: path ∧ addedStatus yaml line ∧ isPrdId isDigit (stem path) ∧
                stem path ∉ s.2 then (s.1, s.2 ++ [stem path])
            else s

/-- `detect_status_transitions` -/
def detectStatusTransitions (diff : List Char) : List (List Char) :=
  ((linesOf diff).foldl (detectLine yaml isDigit) (none, [])).2

/-! ## Diffs -/

inductive Mark where
  | keep
  | del
  | add
  deriving DecidableEq

/-- A line of a hunk, or a line that only describes one. -/
inductive Shown where
  | note (text : List Char)
  | line (mark : Mark) (text : List Char)

def Shown.render : Shown → List Char
  | .note text => text
  | .line .keep text => ' ' :: text
  | .line .del text => '-' :: text
  | .line .add text => '+' :: text

def Shown.marked : Shown → Option (Mark × List Char)
  | .note _ => none
  | .line mark text => some (mark, text)

/-- A PRD file with its part of the diff. -/
structure PrdDiff where
  path : List Char
  old : Option (List Char)
  new : List Char
  extended : List (List Char)
  shown : List Shown

def PrdDiff.lines (f : PrdDiff) : List (List Char) :=
  ("diff --git a/".toList ++ f.path) :: f.extended ++
    ("--- ".toList ++ if f.old.isSome then "a/".toList ++ f.path else "/dev/null".toList) ::
    ("+++ b/".toList ++ f.path) :: f.shown.map Shown.render

def diffText (files : List PrdDiff) : List Char := logText (files.flatMap PrdDiff.lines)

/-- The lines of a text, the last one with or without its line feed. -/
def Spells (lines : List (List Char)) (text : List Char) : Prop :=
  logText lines = text ∨ logText lines = text ++ ['\n']

/-- The hunks come from a script of kept, removed and added lines that turns the old text into the
new one; of the kept lines any may be left out. -/
def PrdDiff.Unified (f : PrdDiff) : Prop :=
  ∃ script : List (Mark × List Char),
    Spells ((script.filter (·.1 ≠ .add)).map (·.2)) (f.old.getD []) ∧
    Spells ((script.filter (·.1 ≠ .del)).map (·.2)) f.new ∧
    (f.shown.filterMap Shown.marked).Sublist script ∧
    (f.shown.filterMap Shown.marked).filter (·.1 ≠ .keep) = script.filter (·.1 ≠ .keep)

/-- A PRD whose part of the diff has one line that names a file, and no line end in a line. -/
structure PrdDiff.Plain (isDigit : Char → Bool) (f : PrdDiff) : Prop where
  dir : prdsDir <:+: f.path
  id : isPrdId isDigit (stem f.path) = true
  header : plusFile ("+++ b/".toList ++ f.path) = some f.path
  unbroken : ∀ line ∈ f.lines, ∀ c ∈ line, isLineBreak c = false
  extended : ∀ line ∈ f.extended, plusFile line = none
  shown : ∀ s ∈ f.shown, plusFile s.render = none ∧ startsFile s.render = false

section

variable [DecidableEq κ] (prd status : κ)

/-- The status the parser reads. -/
def parsedStatus (text : List Char) : Option (Doc κ α) :=
  Dict.lookup (parseFrontmatter yaml prd text) status

/-- The parsed status is in the implemented family, in any case. -/
def Implemented (text : List Char) : Prop :=
  ∃ value, parsedStatus yaml prd status text = some value ∧ ∃ word ∈ implementedFamily,
    afterLiteral word (stripChars (yaml.str value)) = some []

def PrdDiff.Moves (f : PrdDiff) : Prop :=
  Implemented yaml prd status f.new ∧ ∀ old, f.old = some old → ¬ Implemented yaml prd status old

def PrdDiff.Stays (f : PrdDiff) : Prop :=
  ∃ old, f.old = some old ∧ parsedStatus yaml prd status old = parsedStatus yaml prd status f.new

/-- An added line that spells a status of the family in plain words, in the frontmatter or not. -/
def PrdDiff.AddsStatus (f : PrdDiff) : Prop := ∃ s ∈ f.shown, addedStatus yaml s.render = true

/-- The scan agrees with the parser on a diff. -/
def Agrees (files : List PrdDiff) : Prop :=
  (∀ f ∈ files, f.Moves yaml prd status →
    stem f.path ∈ detectStatusTransitions yaml isDigit (diffText files)) ∧
  ∀ f ∈ files, f.Stays yaml prd status →
    stem f.path ∉ detectStatusTransitions yaml isDigit (diffText files)

end

/-! ## The scan of a diff -/

theorem linesOf_logText {rows : List (List Char)}
    (h : ∀ row ∈ rows, ∀ c ∈ row, isLineBreak c = false) : linesOf (logText rows) = rows := by
  induction rows with
  | nil => rfl
  | cons row rows ih =>
      have hrest := ih fun r hr => h r (List.mem_cons_of_mem _ hr)
      rw [logText] at hrest
      rw [logText, List.flatMap_cons, linesOf_append (.inr (by simp)),
        linesOf_unbroken (h row List.mem_cons_self), hrest, List.singleton_append]

theorem detect_shown {path : List Char} (hdir : prdsDir <:+: path)
    (hid : isPrdId isDigit (stem path) = true) {shown : List Shown}
    (hplain : ∀ s ∈ shown, plusFile s.render = none ∧ startsFile s.render = false)
    (ids : List (List Char)) :
    ∃ found, (shown.map Shown.render).foldl (detectLine yaml isDigit) (some path, ids) =
        (some path, found) ∧ ∀ id, id ∈ found ↔ id ∈ ids ∨
          (id = stem path ∧ ∃ s ∈ shown, addedStatus yaml s.render = true) := by
  induction shown generalizing ids with
  | nil => exact ⟨ids, rfl, by simp⟩
  | cons s rest ih =>
      obtain ⟨hfile, hstart⟩ := hplain s List.mem_cons_self
      obtain ⟨next, hstep, hnext⟩ : ∃ next,
          detectLine yaml isDigit (some path, ids) s.render = (some path, next) ∧
            ∀ id, id ∈ next ↔ id ∈ ids ∨ (id = stem path ∧ addedStatus yaml s.render = true) := by
        simp only [detectLine, hfile, hstart, Bool.false_eq_true, if_false, hdir, hid, true_and]
        split
        · next h => exact ⟨_, rfl, fun id => by simp [h.1]⟩
        · next h =>
          refine ⟨ids, rfl, fun id => ⟨.inl, fun hmem => hmem.elim (fun h => h) ?_⟩⟩
          rintro ⟨rfl, hadded⟩
          exact not_not.mp fun hnot => h ⟨hadded, hnot⟩
      obtain ⟨found, hrun, hfound⟩ := ih (fun t ht => hplain t (List.mem_cons_of_mem _ ht)) next
      refine ⟨found, by rw [List.map_cons, List.foldl_cons, hstep, hrun], fun id => ?_⟩
      rw [hfound, hnext]
      simp only [List.mem_cons, exists_eq_or_imp]
      tauto

theorem detect_none {lines : List (List Char)} (h : ∀ line ∈ lines, plusFile line = none)
    (ids : List (List Char)) :
    lines.foldl (detectLine yaml isDigit) (none, ids) = (none, ids) := by
  induction lines with
  | nil => rfl
  | cons line rest ih =>
      have hstep : detectLine yaml isDigit (none, ids) line = (none, ids) := by
        simp [detectLine, h line List.mem_cons_self]
      rw [List.foldl_cons, hstep, ih fun l hl => h l (List.mem_cons_of_mem _ hl)]

variable {files : List PrdDiff}

theorem detect_files (hplain : ∀ f ∈ files, f.Plain isDigit) (current : Option (List Char))
    (ids : List (List Char)) :
    ∃ last found, (files.flatMap PrdDiff.lines).foldl (detectLine yaml isDigit) (current, ids) =
        (last, found) ∧ ∀ id, id ∈ found ↔ id ∈ ids ∨
          ∃ f ∈ files, id = stem f.path ∧ f.AddsStatus yaml := by
  induction files generalizing current ids with
  | nil => exact ⟨current, ids, rfl, by simp⟩
  | cons f rest ih =>
      have hf := hplain f List.mem_cons_self
      have hopens : detectLine yaml isDigit (current, ids) ("diff --git a/".toList ++ f.path) =
          (none, ids) := rfl
      have hold (name : List Char) :
          detectLine yaml isDigit (none, ids) ("--- ".toList ++ name) = (none, ids) := rfl
      have hnew : detectLine yaml isDigit (none, ids) ("+++ b/".toList ++ f.path) =
          (some f.path, ids) := by rw [detectLine, hf.header]
      obtain ⟨next, hshown, hnext⟩ := detect_shown yaml isDigit hf.dir hf.id hf.shown ids
      obtain ⟨last, found, hrun, hfound⟩ :=
        ih (fun g hg => hplain g (List.mem_cons_of_mem _ hg)) (some f.path) next
      refine ⟨last, found, ?_, fun id => ?_⟩
      · rw [List.flatMap_cons, List.foldl_append, PrdDiff.lines, List.cons_append, List.foldl_cons,
          hopens, List.foldl_append, detect_none yaml isDigit hf.extended, List.foldl_cons, hold,
          List.foldl_cons, hnew, hshown, hrun]
      · rw [hfound, hnext, or_assoc]
        simp only [List.mem_cons, exists_eq_or_imp, PrdDiff.AddsStatus]

theorem mem_detect (hplain : ∀ f ∈ files, f.Plain isDigit) (id : List Char) :
    id ∈ detectStatusTransitions yaml isDigit (diffText files) ↔
      ∃ f ∈ files, id = stem f.path ∧ f.AddsStatus yaml := by
  have hlines : ∀ row ∈ files.flatMap PrdDiff.lines, ∀ c ∈ row, isLineBreak c = false := by
    intro row hrow
    obtain ⟨f, hf, hmem⟩ := List.mem_flatMap.mp hrow
    exact (hplain f hf).unbroken row hmem
  obtain ⟨last, found, hrun, hfound⟩ := detect_files yaml isDigit hplain none []
  rw [detectStatusTransitions, diffText, linesOf_logText hlines, hrun, hfound]
  simp

end

/-! A new PRD with one field. -/

def newPrd (field : String) : PrdDiff where
  path := "docs/requirements-aare-f/prds/PRD-CORE-1.md".toList
  old := none
  new := logText [dashes, field.toList, dashes]
  extended := ["new file mode 100644".toList]
  shown := [.note "@@ -0,0 +1,3 @@".toList, .line .add dashes, .line .add field.toList,
    .line .add dashes]

def plainPrd : PrdDiff := newPrd "status: implemented"

def quotedPrd : PrdDiff := newPrd "status: 'implemented'"

/-- A loader for one quoted field. -/
def quotedYaml : Yaml String String :=
  { sampleYaml with
    load text := some (.map [("status", .leaf (String.ofList ((text.filter isLower).drop 6)))])
    keys_nodup text data h := by
      cases h
      exact List.nodup_singleton _ }

end TrwMcp.Requirements.Transitions
