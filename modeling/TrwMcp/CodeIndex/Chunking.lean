import TrwMcp.Intent.LedgerRuns
import TrwMcp.Lib.Text
import Mathlib.Data.List.SplitBy

/-!
# Chunking one file for the code index

`chunk_source` cuts a Python file by its top-level statements and any other file by its lines, in
windows of at most eighty lines. Statements carry the line numbers of the parser; the lines they are
looked up in come from `str.splitlines`, which knows more line boundaries.
-/

namespace TrwMcp.CodeIndex

open Intent Lib

/-! ## The parser's tree -/

inductive StmtKind where
  | classDef (name : String)
  | functionDef (name : String)
  | annAssign (target : Option String)
  | assign (targets : List (Option String))
  | other
  deriving DecidableEq

/-- A top-level statement; `decorators` are the lines its decorators begin on, `docstring` is what
`ast.get_docstring` finds in a definition. A target is its identifier, if it is a plain name. -/
structure Stmt where
  kind : StmtKind
  lineno : Nat
  endLineno : Option Nat
  decorators : List Nat := []
  docstring : Option (List Char) := none
  deriving DecidableEq

inductive SymbolKind where
  | module
  | function
  | classSymbol
  | constant
  | fallback
  deriving DecidableEq

def topLevelSymbol (s : Stmt) : Option (String × SymbolKind) :=
  match s.kind with
  | .classDef name => some (name, .classSymbol)
  | .functionDef name => some (name, .function)
  | .annAssign (some name) => some (name, .constant)
  | .assign targets => targets.reduceOption.head?.map (·, .constant)
  | _ => none

def Stmt.isDefinition (s : Stmt) : Bool :=
  match s.kind with
  | .classDef _ | .functionDef _ => true
  | _ => false

def nodeEndLine (s : Stmt) : Nat := s.endLineno.getD s.lineno

def Stmt.loose (s : Stmt) : Bool := (topLevelSymbol s).isNone

/-! ## Chunks -/

def maxChunkLines : Nat := 80

structure CodeChunk where
  chunkId : String
  path : List Char
  language : List Char
  symbolName : Option String
  symbolKind : SymbolKind
  startLine : Nat
  endLine : Nat
  textHash : String
  signature : List Char
  docstringSummary : List Char
  astAvailable : Bool
  text : List Char
  deriving DecidableEq

inductive Fault where
  | validationError
  | indexError
  deriving DecidableEq

/-- `build_chunk_store` skips a file for a `ValueError`, which a validation error is. -/
def Fault.abortsBuild : Fault → Bool
  | .validationError => false
  | .indexError => true

/-- What the interpreter supplies: `str.lower`, `ast.parse` without the trees of a `SyntaxError`,
and the hex digest. -/
structure Python where
  lower : List Char → List Char
  parse : List Char → Option (List Stmt)
  sha256 : List Char → String

/-- `PurePosixPath(path).name` -/
def posixName (path : List Char) : List Char :=
  ((path.splitOn '/').filter fun part => part ≠ [] && part ≠ ['.']).getLast?.getD []

/-- `PurePosixPath(path).suffix` -/
def posixSuffix (path : List Char) : List Char :=
  let name := posixName path
  let extension := name.rtakeWhile (· ≠ '.')
  if extension ≠ [] ∧ extension.length + 1 < name.length then '.' :: extension else []

def languageBySuffix : List (String × String) :=
  [(".py", "python"), (".js", "javascript"), (".jsx", "javascript"), (".ts", "typescript"),
    (".tsx", "typescript"), (".go", "go"), (".rs", "rust"), (".java", "java"), (".md", "markdown"),
    (".yml", "yaml"), (".yaml", "yaml"), (".json", "json"), (".toml", "toml"), (".sql", "sql"),
    (".sh", "shell")]

/-- `_path_must_be_repo_relative_posix`, and the least length. -/
def pathOk (path : List Char) : Bool :=
  path ≠ [] && path.head? ≠ some '/' && !"../".toList.isPrefixOf path && path ≠ "..".toList &&
    !decide ("/../".toList <:+: path) && !path.contains '\\'

/-- `"\n".join(lines)` -/
def joinLines (lines : List (List Char)) : List Char := ['\n'].intercalate lines

/-- `lines[start - 1 : stop]` -/
def lineSlice (lines : List (List Char)) (start stop : Nat) : List (List Char) :=
  (lines.take stop).drop (start - 1)

def lineAt (lines : List (List Char)) (lineno : Nat) : List Char :=
  if 1 ≤ lineno then ((lines[lineno - 1]?).map Text.stripChars).getD [] else []

/-- The first line of a docstring; of a blank one there is none. -/
def summary : Option (List Char) → Except Fault (List Char)
  | none => .ok []
  | some docstring =>
      match linesOf (Text.stripChars docstring) with
      | [] => .error .indexError
      | first :: _ => .ok ((Text.stripChars first).take 200)

section

variable (py : Python)

def languageForPath (path : List Char) : List Char :=
  let suffix := py.lower (posixSuffix path)
  match languageBySuffix.find? fun m => m.1.toList = suffix with
  | some m => m.2.toList
  | none => if suffix.tail = [] then "text".toList else suffix.tail

def SymbolKind.text : SymbolKind → String
  | .module => "module"
  | .function => "function"
  | .classSymbol => "class"
  | .constant => "constant"
  | .fallback => "fallback"

/-- The seed of a chunk's id, its parts apart by a zero character. -/
def chunkSeed (path : List Char) (kind : SymbolKind) (name : Option String) (start stop : Nat)
    (textHash : String) : List Char :=
  ['\x00'].intercalate [path, kind.text.toList, (name.getD "").toList, (toString start).toList,
    (toString stop).toList, textHash.toList]

structure ChunkSpec where
  path : List Char
  language : List Char
  symbolName : Option String
  symbolKind : SymbolKind
  signature : List Char
  docstringSummary : List Char
  astAvailable : Bool

/-- The chunk of the lines, unvalidated. -/
def chunkOf (spec : ChunkSpec) (lines : List (List Char)) (start stop : Nat) : CodeChunk :=
  let text := joinLines (lineSlice lines start stop)
  let textHash := py.sha256 text
  { chunkId := py.sha256
      (chunkSeed spec.path spec.symbolKind spec.symbolName start stop textHash)
    path := spec.path, language := spec.language, symbolName := spec.symbolName
    symbolKind := spec.symbolKind, startLine := start, endLine := stop, textHash
    signature := Text.stripChars spec.signature, docstringSummary := spec.docstringSummary
    astAvailable := spec.astAvailable, text }

def chunkFromLines (spec : ChunkSpec) (lines : List (List Char)) (start stop : Nat) :
    Except Fault CodeChunk :=
  if pathOk spec.path then .ok (chunkOf py spec lines start stop) else .error .validationError

/-- `range(start, stop + 1, MAX_CHUNK_LINES)` -/
@[grind =] def windowStarts : Nat → Nat → Nat → List Nat
  | 0, _, _ => []
  | fuel + 1, start, stop =>
      if start ≤ stop then start :: windowStarts fuel (start + maxChunkLines) stop else []

def windowStop (start stop : Nat) : Nat := min (start + maxChunkLines - 1) stop

def windowedChunks (spec : ChunkSpec) (lines : List (List Char)) (span : Nat × Nat) :
    Except Fault (List CodeChunk) :=
  let stop := min span.2 lines.length
  let spec := { spec with signature := lineAt lines span.1 }
  (windowStarts (stop + 1) span.1 stop).mapM fun start =>
    chunkFromLines py spec lines start (windowStop start stop)

/-- What one turn of the loop windows: a run of statements that name nothing, or one that does. -/
structure Piece where
  symbol : Option (String × SymbolKind)
  span : Nat × Nat
  docstring : Option (List Char)
  deriving DecidableEq

def runPieces (run : List Stmt) : List Piece :=
  match run.head?, run.getLast? with
  | some first, some last =>
      if first.loose then [⟨none, (first.lineno, nodeEndLine last), none⟩]
      else run.map fun s => ⟨topLevelSymbol s, (s.lineno, nodeEndLine s),
        if s.isDefinition then s.docstring else none⟩
  | _, _ => []

/-- `itertools.groupby` by whether a statement names a symbol. -/
def pieces (body : List Stmt) : List Piece :=
  (body.splitBy fun s t => s.loose == t.loose).flatMap runPieces

@[grind =] def pieceChunks (path language : List Char) (lines : List (List Char)) (piece : Piece) :
    Except Fault (List CodeChunk) := do
  let docstringSummary ← summary piece.docstring
  let symbolKind := match piece.symbol with
    | some (_, kind) => kind
    | none => .module
  windowedChunks py
    { path, language, symbolName := piece.symbol.map (·.1), symbolKind, signature := []
      docstringSummary, astAvailable := true } lines piece.span

/-- The statements a file is cut by, if any of them names a symbol. -/
def namedBody (text : List Char) : Option (List Stmt) :=
  (py.parse text).filter fun body => !body.all Stmt.loose

def pythonChunks (path language text : List Char) : Except Fault (List CodeChunk) :=
  match namedBody py text with
  | none => .ok []
  | some body => do
      let chunks ← (pieces body).mapM (pieceChunks py path language (linesOf text))
      return chunks.flatten

def fallbackChunks (path language text : List Char) : Except Fault (List CodeChunk) :=
  let lines := if linesOf text = [] then [[]] else linesOf text
  (windowStarts (lines.length + 1) 1 lines.length).mapM fun start =>
    let stop := windowStop start lines.length
    chunkFromLines py
      { path, language, symbolName := none, symbolKind := .fallback
        signature := posixName path ++ ':' :: ((toString start).toList ++ '-' ::
          (toString stop).toList)
        docstringSummary := [], astAvailable := false } lines start stop

def chunkSource (path text : List Char) : Except Fault (List CodeChunk) :=
  let language := languageForPath py path
  if language = "python".toList then do
    let chunks ← pythonChunks py path language text
    if chunks.isEmpty then fallbackChunks py path language text else return chunks
  else fallbackChunks py path language text

end

/-! ## The lines of a file -/

/-- The rest of the first line, and the lines after it, with CR, LF and CRLF as line ends. -/
@[grind =] def splitUniversal : List Char → List Char × List (List Char)
  | [] => ([], [])
  | '\r' :: '\n' :: cs =>
      let (line, lines) := splitUniversal cs
      ([], if cs.isEmpty then lines else line :: lines)
  | c :: cs =>
      let (line, lines) := splitUniversal cs
      if c = '\n' || c = '\r' then ([], if cs.isEmpty then lines else line :: lines)
      else (c :: line, lines)

/-- The lines the parser counts. -/
def universalLines (cs : List Char) : List (List Char) :=
  if cs = [] then [] else (splitUniversal cs).1 :: (splitUniversal cs).2

/-- The line spans as the parser documents them. -/
structure Documented (count : Nat) (body : List Stmt) : Prop where
  spans : ∀ s ∈ body, 1 ≤ s.lineno ∧ s.lineno ≤ nodeEndLine s ∧ nodeEndLine s ≤ count
  decorators : ∀ s ∈ body, ∀ d ∈ s.decorators, s.isDefinition = true ∧ 1 ≤ d ∧
    d < s.lineno
  ordered : body.Pairwise fun s t => nodeEndLine s ≤ t.lineno ∧ ∀ d ∈ t.decorators,
    nodeEndLine s < d

end TrwMcp.CodeIndex
