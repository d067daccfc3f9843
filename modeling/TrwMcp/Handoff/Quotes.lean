import TrwMcp.Handoff.Check
import TrwMcp.Lib.Text

/-!
# Quotes cut from the files of a checkout

A sender names a range of lines of a file, and the record carries those lines together with the
URI of the file and the digest of its bytes. The URI spells the path below the root of the
checkout in percent-encoded UTF-8, so a receiver can open the same file from its own root.
-/

namespace TrwMcp.Handoff.Quotes

open Lib Check

/-! ## Paths -/

abbrev Name := List Char

/-- A name a directory can hold. -/
def IsName (n : Name) : Prop := n ≠ [] ∧ n ≠ ['.'] ∧ n ≠ ['.', '.'] ∧ '/' ∉ n

instance (n : Name) : Decidable (IsName n) := inferInstanceAs (Decidable (_ ∧ _))

/-- `PurePosixPath(text).parts`, without the leading slash -/
def partsOf (text : List Char) : List Name :=
  (text.splitOn '/').filter fun n => n ≠ [] ∧ n ≠ ['.']

/-- `as_posix` of a relative path -/
def asPosix (names : List Name) : List Char :=
  if names = [] then ['.'] else ['/'].intercalate names

/-- `str` of an absolute path -/
def pathText (names : List Name) : List Char := '/' :: ['/'].intercalate names

/-- `base / rest` -/
def joined (base : List Name) (rest : List Char) : List Name :=
  if rest.head? = some '/' then partsOf rest else base ++ partsOf rest

/-- The files of a machine, by the names on the way to them from `/`. -/
structure FileSystem where
  /-- `path.resolve()`; `none` where it raises -/
  realpath : List Name → Option (List Name)
  /-- `Path(raw).expanduser()`, from the working directory -/
  expanduser : List Char → Option (List Name)
  /-- `path.exists()` -/
  present : List Name → Bool
  /-- the bytes of a regular file that can be read -/
  read : List Name → Option ByteArray
  /-- `raw.decode("utf-8", "replace")` -/
  decodeReplace : ByteArray → String
  /-- a resolved path has no `.` or `..` left -/
  plain : ∀ {p q}, realpath p = some q → ∀ n ∈ q, IsName n
  /-- no directory on the way to a resolved path is a link -/
  settled : ∀ {p q r}, realpath p = some (q ++ r) → realpath q = some q
  present_of_read : ∀ {p raw}, read p = some raw → present p = true
  decode_text : ∀ text : String, decodeReplace text.toUTF8 = text

/-- The checkout below a root. -/
def FileSystem.checkout (fs : FileSystem) (root : List Name) : Tree :=
  let base := (fs.realpath root).getD root
  { resolve := fun rest =>
      (fs.realpath (joined base rest.toList)).map fun path => String.ofList (pathText path)
    inside := fun path => base.isPrefixOf (partsOf path.toList)
    present := fun path => fs.present (partsOf path.toList)
    read := fun path => fs.read (partsOf path.toList)
    decodeReplace := fs.decodeReplace }

/-! ## URIs -/

/-- `_UNRESERVED.fullmatch` of one byte -/
def unreserved (b : UInt8) : Bool :=
  let c := Char.ofNat b.toNat
  c.isAlphanum || c == '/' || c == '.' || c == '_' || c == '~' || c == '-'

def upperHex (d : Nat) : Char := if d < 10 then Char.ofNat (48 + d) else Char.ofNat (55 + d)

/-- `_encode` of one byte -/
def encodeByte (b : UInt8) : List Char :=
  if unreserved b then [Char.ofNat b.toNat]
  else ['%', upperHex (b.toNat / 16), upperHex (b.toNat % 16)]

/-- `_encode` -/
def encode (text : List Char) : List Char :=
  (String.ofList text).toUTF8.data.toList.flatMap encodeByte

/-- `file_uri`; `none` where it raises -/
def fileUri (fs : FileSystem) (path root : List Name) : Option (List Char) :=
  match fs.realpath path with
  | none => none
  | some resolved =>
      if root.isPrefixOf resolved then
        some ("file:".toList ++ encode (asPosix (resolved.drop root.length)))
      else none

/-- What `confined_path` takes for the relative path that a URI spells. -/
def relativeForm (fs : FileSystem) (uri : String) : List Char :=
  let rest := (uri.toList.dropWhile (· != ':')).drop 1
  percentDecode fs.decodeReplace [] ((rest.takeWhile (· != '#')).takeWhile (· != '?'))

/-! ## Lines -/

/-- `text_lines` -/
def textLines (text : List Char) : List (List Char) :=
  let lines := text.splitOn '\n'
  if lines.getLast? = some [] then lines.dropLast else lines

/-- `text.rstrip("\r\n")` -/
def stripBreaks (text : List Char) : List Char :=
  text.rdropWhile fun c => c == '\r' || c == '\n'

/-- `"\n".join(lines[first - 1 : last]).rstrip("\r\n")` -/
def rangeText (lines : List (List Char)) (first last : Nat) : List Char :=
  stripBreaks (['\n'].intercalate ((lines.take last).drop (first - 1)))

/-- `int` of `[1-9]\d*`, by the value of each decimal digit -/
def numeral (digit : Char → Option Nat) : List Char → Option Nat
  | [] => none
  | c :: cs =>
      if '1' ≤ c ∧ c ≤ '9' then
        cs.foldlM (fun n d => (digit d).map (10 * n + ·)) (c.toNat - 48)
      else none

/-- `_RANGE.match(spec)`: the path, the first line and the last one. -/
def lineRange (digit : Char → Option Nat) (spec : List Char) : Option (List Char × Nat × Nat) :=
  -- no part of the range holds a `#`, so the last one ends the path
  let path := (spec.rdropWhile (· != '#')).dropLast
  let range := spec.rtakeWhile (· != '#')
  -- `$` also matches before a final line break
  let range := if range.getLast? = some '\n' then range.dropLast else range
  if path = [] ∨ '\n' ∈ path then none
  else
    match range with
    | 'L' :: range =>
        match numeral digit (range.takeWhile (· != '-')), range.dropWhile (· != '-') with
        | some first, [] => some (path, first, first)
        | some first, '-' :: 'L' :: range =>
            (numeral digit range).map fun last => (path, first, last)
        | _, _ => none
    | _ => none

/-- `_MAX_TEXT_CHARS` -/
def maxTextChars : Nat := 2000

/-- The path a range is taken from: `file:` is relative to the root. -/
def sourcePath (fs : FileSystem) (root : List Name) (raw : List Char) : Option (List Name) :=
  if (raw.take 5).map Char.toLower = "file:".toList then some (joined root (raw.drop 5))
  else fs.expanduser raw

/-- The file a range is taken from, if it resolves. -/
def sourceFile (digit : Char → Option Nat) (fs : FileSystem) (root : List Name)
    (spec : List Char) : Option (List Name) :=
  (lineRange digit spec).bind fun range => (sourcePath fs root range.1).bind fs.realpath

/-- `data.decode("utf-8")` of a file of at most 2 MiB -/
def readText (fs : FileSystem) (path : List Name) : Option (ByteArray × List Char) :=
  match (fs.read path).filter (·.size ≤ maxSourceBytes) with
  | none => none
  | some raw => (String.fromUTF8? raw).map fun text => (raw, text.toList)

def rangeSuffix (first last : Nat) : List Char :=
  if last = first then ("#L" ++ toString first).toList
  else ("#L" ++ toString first ++ "-L" ++ toString last).toList

/-- The `source` of a quote. -/
def quoteSource (lib : Stdlib) (uri : List Char) (raw : ByteArray) : Json :=
  .obj [("uri", .str (String.ofList uri)), ("digest", .str (rawDigest lib raw))]

def quote (lib : Stdlib) (text uri : List Char) (raw : ByteArray) : Json :=
  .obj [("text", .str (String.ofList text)), ("source", quoteSource lib uri raw)]

/-- `quote_from` -/
def quoteFrom (lib : Stdlib) (digit : Char → Option Nat) (fs : FileSystem) (root : List Name)
    (spec : List Char) : Except String Json :=
  let refuse why : Except String Json :=
    .error ("--constraint-from " ++ String.ofList spec ++ ": " ++ why)
  match lineRange digit spec with
  | none => refuse "expected <path>#L<first> or <path>#L<first>-L<last>"
  | some (raw, first, last) =>
      match (sourcePath fs root raw).bind fs.realpath with
      | none => refuse "the path does not resolve"
      | some path =>
          if !root.isPrefixOf path then refuse "outside the repository root"
          else
            match readText fs path with
            | none => refuse "not a readable UTF-8 file of at most 2 MiB"
            | some (data, content) =>
                let lines := textLines content
                let text := rangeText lines first last
                if last < first ∨ lines.length < last then
                  refuse ("lines " ++ toString first ++ "-" ++ toString last ++
                    " are not in a file of " ++ toString lines.length ++ " lines")
                else if Text.stripChars text = [] then refuse "the range holds no text"
                else if maxTextChars < text.length then
                  refuse (toString text.length ++ " characters; split into ranges of at most " ++
                    toString maxTextChars)
                else
                  match fileUri fs path root with
                  | none =>
                      .error (String.ofList (pathText path) ++ " is outside the repository root " ++
                        String.ofList (pathText root))
                  | some uri => .ok (quote lib text (uri ++ rangeSuffix first last) data)

end TrwMcp.Handoff.Quotes
