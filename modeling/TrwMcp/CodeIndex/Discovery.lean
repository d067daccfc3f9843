import TrwMcp.Lib.Dict
import TrwMcp.Lib.Text
import Mathlib

/-!
# Discovering the files of the code index

A full update walks the tree from its root and drops a directory when it lists it. A scoped update
visits its scopes and the remembered files one by one, and looks at the directories above each of
them instead. Rows are made of the files that are found; the budgets are not crossed here.
-/

namespace TrwMcp.CodeIndex

open Lib

/-- The parts of a path below the root. -/
abbrev Parts : Type := List (List Char)

/-- An entry of the tree. A directory that is not readable can neither be listed nor opened. -/
inductive Node where
  | file (readable : Bool) (data : List UInt8)
  | dir (readable : Bool) (entries : List (List Char × Node))
  | symlink
  | other

/-- What an update is given beside the tree. -/
structure UpdateOptions where
  excludeDirs : List (List Char)
  includeExtensions : List (List Char)
  maxFileBytes : Nat
  /-- `text.lower()` -/
  lower : List Char → List Char
  /-- `hashlib.sha256(data).hexdigest()` -/
  sha256 : List UInt8 → String

/-- `MAX_INDEXED_FILE_BYTES` -/
def maxIndexedFileBytes : Nat := 1048576

/-- `DEFAULT_EXCLUDE_RELATIVE` -/
def defaultExcludeRelative : List Parts := [[".claude".toList, "worktrees".toList]]

/-! ## The tree -/

/-- The entry at a path, through real directories. -/
@[grind =] def find : Node → Parts → Option Node
  | node, [] => some node
  | .dir _ entries, name :: rest => (Dict.lookup entries name).bind fun node => find node rest
  | _, _ :: _ => none

/-- `open_under`, and the bytes of the file: every directory is opened, and no symlink is followed. -/
@[grind =] def openUnder : Node → Parts → Option (List UInt8)
  | .file true data, [] => some data
  | .dir true entries, name :: rest =>
      (Dict.lookup entries name).bind fun node => openUnder node rest
  | _, _ => none

/-- `path.suffix` of a name -/
def suffix (name : List Char) : List Char :=
  let ending := name.reverse.takeWhile (· ≠ '.')
  if ending ≠ [] ∧ ending.length + 1 < name.length then '.' :: ending.reverse else []

section

variable (options : UpdateOptions) (root : Node)

/-- `_Walk.max_file_bytes` -/
def UpdateOptions.walkBytes : Nat := min options.maxFileBytes maxIndexedFileBytes

/-- `_Walk.pruned`, of an entry that is a directory or a symlink. -/
def pruned (path : Parts) : Node → Bool
  | .dir _ entries =>
      path.getLast?.any (options.excludeDirs.contains ·) || defaultExcludeRelative.contains path ||
        Dict.has entries ".git".toList
  | .symlink => true
  | _ => false

/-- `_Walk.ancestry_pruned`, from `current` on. -/
@[grind =] def ancestryPruned (current : Parts) : Parts → Bool
  | [] => false
  | part :: rest =>
      (find root (current ++ [part])).any (pruned options (current ++ [part])) ||
        ancestryPruned (current ++ [part]) rest

/-- `_skip_as_binary` -/
def skipAsBinary (path : Parts) : Bool :=
  match openUnder root path with
  | some data => (data.take 4096).contains 0
  | none => true

/-- Whether `_Walk.consider_file` takes a file. -/
def considerFile (path : Parts) (size : Nat) : Bool :=
  path.getLast?.any (fun name => options.includeExtensions.contains (options.lower (suffix name))) &&
    !(options.walkBytes < size || skipAsBinary root path)

mutual

/-- What one entry of a listing adds to the walk. -/
@[grind =] def walkEntry (path : Parts) : Node → List Parts
  | .dir readable entries =>
      if pruned options path (.dir readable entries) || !readable then []
      else walkEntries path entries
  | .file _ data => if considerFile options root path data.length then [path] else []
  | _ => []

/-- The loop over a listing. -/
@[grind =] def walkEntries (path : Parts) : List (List Char × Node) → List Parts
  | [] => []
  | (name, node) :: entries => walkEntry (path ++ [name]) node ++ walkEntries path entries

end

/-- `_Walk.walk`: the files below a directory. They are sorted later, so the order does not matter. -/
def walk (start : Parts) : Node → List Parts
  | .dir true entries => walkEntries options root start entries
  | _ => []

/-- `_Walk.visit_limit` -/
def visitLimit (limit : Parts) (fileOnly : Bool) : List Parts :=
  match find root limit with
  | none => []
  | some node =>
      if limit ≠ [] ∧ ancestryPruned options root [] limit = true then []
      else
        match node with
        | .file _ data => if considerFile options root limit data.length then [limit] else []
        | .dir _ _ => if fileOnly then [] else walk options root limit node
        | _ => []

end

/-! ## Scopes -/

/-- `PurePosixPath(text).parts`, of a path that is not absolute. -/
def posixParts (text : List Char) : Parts :=
  (text.splitOnP (· = '/')).filter fun part => part ≠ [] ∧ part ≠ ['.']

/-- The parts of a path that stays below the root. -/
def relativeParts (text : List Char) : Option Parts :=
  if text.head? = some '/' ∨ ['.', '.'] ∈ posixParts text then none else some (posixParts text)

/-- `raw_path.replace("\\", "/").strip()` -/
def cleanScope (raw : List Char) : List Char :=
  Text.stripChars (raw.map fun c => if c = '\\' then '/' else c)

/-- `as_posix()` of parts, which are not empty. -/
@[grind =] def asPosix : Parts → List Char
  | [] => []
  | [part] => part
  | part :: rest => part ++ '/' :: asPosix rest

/-- `_normalize_scopes` -/
@[grind =] def normalizeScopes : List (List Char) → Option (List (List Char))
  | [] => some []
  | raw :: rest =>
      match relativeParts (cleanScope raw) with
      | none => normalizeScopes rest
      | some [] => none
      | some parts =>
          (normalizeScopes rest).map fun scopes =>
            asPosix parts :: scopes.filter (· ≠ asPosix parts)

/-- `_path_is_in_scope`, where there are scopes. -/
def pathIsInScope (path : List Char) (scopes : List (List Char)) : Bool :=
  scopes.any fun scope => path = scope || (scope ++ ['/']).isPrefixOf path

/-! ## The update -/

structure CodeIndexFileRow where
  path : List Char
  sha256 : String
  deriving DecidableEq

/-- The validator of a row's path. -/
def validRowPath (path : List Char) : Bool :=
  !("/".toList.isPrefixOf path || "../".toList.isPrefixOf path || path = "..".toList ||
    decide ("/../".toList <:+: path) || path.contains '\\') && path ≠ []

section

variable (options : UpdateOptions) (root : Node)

/-- `discover_indexable_files`: the files, each once, by their paths. -/
def discoverIndexableFiles (paths : Option (List (List Char))) (files : List (List Char)) :
    List Parts :=
  let limited :=
    match paths with
    | none => walk options root [] root
    | some paths => (paths.filterMap fun raw => relativeParts (cleanScope raw)).flatMap
        fun limit => visitLimit options root limit false
  let remembered := (files.filterMap relativeParts).flatMap fun limit =>
    if limit = [] then [] else visitLimit options root limit true
  (limited ++ remembered).dedup.insertionSort fun p q => asPosix p ≤ asPosix q

/-- `read_indexed_file` -/
def readIndexedFile (path : Parts) (maxBytes : Nat) : Option (List UInt8) :=
  (openUnder root path).filter fun data => decide (data.length ≤ maxBytes)

/-- `update_code_index`: the rows it publishes, or `none` for a row that is refused. `previous` are
the paths of the manifest before. -/
def updateCodeIndex (paths : Option (List (List Char))) (previous : List (List Char)) :
    Option (List CodeIndexFileRow) :=
  let outOfScope :=
    match paths.bind normalizeScopes with
    | none => []
    | some scopes => previous.filter fun path => !pathIsInScope path scopes
  let rows := (discoverIndexableFiles options root paths outOfScope).filterMap fun path =>
    (readIndexedFile root path options.walkBytes).map fun data =>
      ⟨asPosix path, options.sha256 data⟩
  if rows.all fun row => validRowPath row.path then some rows else none

end

end TrwMcp.CodeIndex
