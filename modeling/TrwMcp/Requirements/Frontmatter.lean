import TrwMcp.Lib.Dict
import TrwMcp.Lib.Text

/-!
# The frontmatter of a PRD file

A PRD file is YAML between two delimiters and markdown after it. The reader lays the fields of a
nested `prd` map under those of the top level; the writer merges its updates into the nested map
where there is one, else into the top level, and keeps the body, but for the status word of the Quick
Reference block. Both read and write files in text mode.
-/

namespace TrwMcp.Requirements.Frontmatter

open Lib Regex

/-- A YAML value: a mapping, or any other. -/
inductive Doc (κ α : Type) where
  | leaf (value : α)
  | map (members : List (κ × Doc κ α))

/-- What the module is built on: the YAML loader and dumper, and Python's strings. -/
structure Yaml (κ α : Type) where
  /-- `YAML(typ="safe").load(text)` -/
  load : List Char → Option (Doc κ α)
  /-- `YAML().dump(data, stream)` -/
  dump : List (κ × Doc κ α) → List Char
  /-- `str(value)` -/
  str : Doc κ α → List Char
  capitalize : List Char → List Char
  /-- `\w` -/
  isWord : Char → Bool
  keys_nodup : ∀ text data, load text = some (.map data) → (data.map (·.1)).Nodup
  word_space : ∀ c, isWord c = true → isSpace c = false

/-! ## Text mode -/

/-- What text mode reads: every line ends with a newline. -/
@[grind =] def readText : List Char → List Char
  | '\r' :: '\n' :: cs => '\n' :: readText cs
  | '\r' :: cs => '\n' :: readText cs
  | c :: cs => c :: readText cs
  | [] => []

/-! ## The delimiters -/

def dashes : List Char := ['-', '-', '-']

/-- The text up to the first `\n---`, and after it. -/
@[grind =] def closing : List Char → Option (List Char × List Char)
  | [] => none
  | c :: cs =>
      if ('\n' :: dashes).isPrefixOf (c :: cs) then some ([], cs.drop 3)
      else (closing cs).map fun parts => (c :: parts.1, parts.2)

/-- `\s*\n(.*?)\n---`: the newline is the last one of the blanks after which the rest is found. -/
@[grind =] def afterOpening : List Char → Option (List Char × List Char)
  | [] => none
  | c :: cs =>
      if isSpace c then (afterOpening cs).or (if c = '\n' then closing cs else none) else none

/-- `_FRONTMATTER_RE.match`: the block, and the text after the match. -/
def matchFrontmatter (content : List Char) : Option (List Char × List Char) :=
  if dashes.isPrefixOf content then afterOpening (content.drop 3) else none

/-! ## Reading -/

section

variable {κ α : Type} [DecidableEq κ] (yaml : Yaml κ α) (prd : κ)

/-- `{**data["prd"], **{k: v for k, v in data.items() if k != "prd"}}`, where there is a nested map. -/
def flatten (data : List (κ × Doc κ α)) : List (κ × Doc κ α) :=
  match Dict.lookup data prd with
  | some (.map inner) =>
      (data.filter fun m => m.1 ≠ prd).foldl (fun d m => Dict.set d m.1 m.2) inner
  | _ => data

/-- `_parse_frontmatter_block` -/
def parseFrontmatterBlock (block : List Char) : List (κ × Doc κ α) :=
  match yaml.load block with
  | some (.map data) => flatten prd data
  | _ => []

/-- `parse_frontmatter` -/
def parseFrontmatter (content : List Char) : List (κ × Doc κ α) :=
  match matchFrontmatter content with
  | some (block, _) => parseFrontmatterBlock yaml prd block
  | none => []

end

/-! ## The Quick Reference block -/

/-- Two characters that are one up to case. -/
def sameLetter (p c : Char) : Bool :=
  p.toLower = c.toLower || (p.toLower = 'k' && c = '\u212A') ||
    (p.toLower = 'i' && (c = '\u0130' || c = '\u0131'))

/-- What is left after a literal, up to case. -/
@[grind =] def afterLiteral : List Char → List Char → Option (List Char)
  | [], cs => some cs
  | _ :: _, [] => none
  | p :: ps, c :: cs => if sameLetter p c then afterLiteral ps cs else none

/-- How many characters `\s*$` takes: up to the end of the text, or the last line end of the blanks. -/
def blankTail (cs : List Char) : Option Nat :=
  let run := cs.takeWhile isSpace
  if run.length = cs.length then some run.length
  else if '\n' ∈ run then some ((run.rdropWhile (· ≠ '\n')).length - 1) else none

/-- What is left after `#{1,6}` and the blanks that have to follow. -/
def afterHashes (cs : List Char) : Option (List Char) :=
  let rest := cs.dropWhile (· = '#')
  let count := cs.length - rest.length
  if 1 ≤ count ∧ count ≤ 6 ∧ rest.head?.any isSpace then some (rest.dropWhile isSpace) else none

/-- `_QUICK_REFERENCE_RE` at a line start: what is left after the match. -/
def matchQuickReference (cs : List Char) : Option (List Char) :=
  let bold := (afterLiteral "**Quick Reference**".toList cs).map fun rest =>
    if rest.head? = some ':' then rest.drop 1 else rest
  let heading := (afterHashes cs).bind (afterLiteral "Quick Reference".toList)
  (bold.or heading).bind fun rest => (blankTail rest).map rest.drop

/-- `_QUICK_REFERENCE_END_RE` at a line start. -/
def matchQuickReferenceEnd (cs : List Char) : Bool :=
  let rest := cs.dropWhile isSpace
  (dashes.isPrefixOf rest && (blankTail (rest.drop 3)).isSome) || (afterHashes rest).isSome

/-- The text before the end of the first marker, and after it. -/
@[grind =] def splitMarker : Bool → List Char → Option (List Char × List Char)
  | lineStart, cs =>
      match if lineStart then matchQuickReference cs else none with
      | some rest => some (cs.take (cs.length - rest.length), rest)
      | none =>
          match cs with
          | [] => none
          | c :: cs => (splitMarker (c = '\n') cs).map fun parts => (c :: parts.1, parts.2)

/-- The text up to the first end of the block, and from it. -/
@[grind =] def splitEnd : Bool → List Char → List Char × List Char
  | _, [] => ([], [])
  | lineStart, c :: cs =>
      if lineStart && matchQuickReferenceEnd (c :: cs) then ([], c :: cs)
      else
        let (block, rest) := splitEnd (c = '\n') cs
        (c :: block, rest)

/-- `_quick_reference_block_span`: the body in three parts, the block in the middle. -/
def quickReferenceBlockSpan (body : List Char) : Option (List Char × List Char × List Char) :=
  (splitMarker true body).map fun (front, rest) => (front, splitEnd (front.getLast? = some '\n') rest)

section

variable {κ α : Type} (yaml : Yaml κ α)

/-- `(- \*\*Status\*\*:\s*)(\w+)` -/
def matchStatus (cs : List Char) : Option (List Char × List Char × List Char) :=
  let label := "- **Status**:".toList
  if label.isPrefixOf cs then
    let rest := cs.drop label.length
    let blanks := rest.takeWhile isSpace
    let tail := rest.dropWhile isSpace
    let word := tail.takeWhile yaml.isWord
    if word = [] then none else some (label ++ blanks, word, tail.dropWhile yaml.isWord)
  else none

/-- The first match in a text: what stands before the word, the word, and what stands after it. -/
@[grind =] def searchStatus : List Char → Option (List Char × List Char × List Char)
  | [] => none
  | c :: cs =>
      (matchStatus yaml (c :: cs)).or
        ((searchStatus cs).map fun (front, word, rest) => (c :: front, word, rest))

/-- The first status word of the Quick Reference block. -/
def statusWord (body : List Char) : Option (List Char × List Char × List Char) :=
  (quickReferenceBlockSpan body).bind fun (front, block, rest) =>
    (searchStatus yaml block).map fun (lead, word, tail) => (front ++ lead, word, tail ++ rest)

/-- The body with a new status word. -/
def syncStatus (status : Option (Doc κ α)) (body : List Char) : List Char :=
  match status, statusWord yaml body with
  | some value, some (front, _, rest) => front ++ yaml.capitalize (yaml.str value) ++ rest
  | _, _ => body

/-! ## Writing -/

variable [DecidableEq κ]

mutual

/-- What an update makes of the value of a field. -/
@[grind =] def mergeValue : Option (Doc κ α) → Doc κ α → Doc κ α
  | some (.map target), .map source => .map (deepMerge target source)
  | _, value => value

/-- `_deep_merge` -/
@[grind =] def deepMerge : List (κ × Doc κ α) → List (κ × Doc κ α) → List (κ × Doc κ α)
  | target, [] => target
  | target, (key, value) :: source =>
      deepMerge (Dict.set target key (mergeValue (Dict.lookup target key) value)) source

end

variable (prd status : κ)

/-- The updates merged into the nested map where there is one, else into the top level. -/
def mergeUpdates (data updates : List (κ × Doc κ α)) : List (κ × Doc κ α) :=
  match Dict.lookup data prd with
  | some (.map inner) => Dict.set data prd (.map (deepMerge inner updates))
  | _ => deepMerge data updates

/-- `update_frontmatter`: the text that is written, or `none` for a `StateError`. -/
def updateFrontmatter (file : List Char) (updates : List (κ × Doc κ α)) : Option (List Char) :=
  (matchFrontmatter (readText file)).bind fun (block, body) =>
    match yaml.load block with
    | some (.map data) =>
        some (dashes ++ '\n' :: (yaml.dump (mergeUpdates prd data updates) ++ dashes ++
          syncStatus yaml (Dict.lookup updates status) body))
    | _ => none

end

end TrwMcp.Requirements.Frontmatter
