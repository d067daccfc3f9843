import TrwMcp.Lib.Text

/-!
# The managed section of an instruction file

Several tools write into the instruction files of a project, so the generated section stands
between two markers and is merged into whatever text there is: in place of an old section, or at
the end of a text that has none.
-/

namespace TrwMcp.Bootstrap.Markers

open Lib

/-! ## Marker lines -/

def isBlank (c : Char) : Bool := c == ' ' || c == '\t'

/-- `[ \t]*(?P<m>marker)`: the offset of the marker, behind as many blanks as there can be. -/
@[grind =] def leadMatch (marker : List Char) : List Char → Option Nat
  | [] => if marker.isPrefixOf [] then some 0 else none
  | c :: cs =>
      match if isBlank c then leadMatch marker cs else none with
      | some n => some (n + 1)
      | none => if marker.isPrefixOf (c :: cs) then some 0 else none

/-- `find_marker_line_span` with `anchor="start"`: the offset of the first marker that begins a
line; the flag says whether the text begins one. -/
@[grind =] def findStart (marker : List Char) : Bool → List Char → Option Nat
  | lineStart, [] => if lineStart then leadMatch marker [] else none
  | lineStart, c :: cs =>
      match if lineStart then leadMatch marker (c :: cs) else none with
      | some n => some n
      | none => (findStart marker (c == '\n') cs).map (· + 1)

/-- `[ \t]*\r?$` -/
def lineEnds (text : List Char) : Bool :=
  match text.dropWhile isBlank with
  | [] | '\n' :: _ | ['\r'] | '\r' :: '\n' :: _ => true
  | _ => false

def endsLine (marker text : List Char) : Bool :=
  marker.isPrefixOf text && lineEnds (text.drop marker.length)

/-- `find_marker_line_span` with `anchor="end"`: the offset of the first marker that ends a
line. -/
@[grind =] def findEnd (marker : List Char) : List Char → Option Nat
  | [] => if endsLine marker [] then some 0 else none
  | c :: cs => if endsLine marker (c :: cs) then some 0 else (findEnd marker cs).map (· + 1)

/-! ## Line endings -/

/-- `text.count("\r\n")` -/
@[grind =] def countCrlf : List Char → Nat
  | [] => 0
  | '\r' :: '\n' :: cs => countCrlf cs + 1
  | _ :: cs => countCrlf cs

/-- `file_eol` -/
def fileEol (text : List Char) : List Char :=
  if text.count '\n' - countCrlf text < countCrlf text then ['\r', '\n'] else ['\n']

/-- `text.replace("\r\n", "\n")` -/
@[grind =] def toLf : List Char → List Char
  | [] => []
  | '\r' :: '\n' :: cs => '\n' :: toLf cs
  | c :: cs => c :: toLf cs

/-- `as_eol` -/
def asEol (text eol : List Char) : List Char :=
  (toLf text).flatMap fun c => if c = '\n' then eol else [c]

/-- `block_text` -/
def blockText (block eol : List Char) : List Char :=
  asEol ((block.dropWhile (· == '\n')).rdropWhile (· == '\n')) eol ++ eol

/-- What `append_block` puts between the text and the block. -/
def junction (existing eol : List Char) : List Char :=
  if (eol ++ eol).isSuffixOf existing then []
  else if eol.isSuffixOf existing then eol
  else eol ++ eol

/-- `append_block` -/
def appendBlock (existing block : List Char) : List Char :=
  let eol := fileEol existing
  if Text.stripChars existing = [] then blockText block eol
  else existing ++ junction existing eol ++ blockText block eol

/-- `smart_merge_marker_section` -/
def smartMerge (startMarker endMarker trwSection existing : List Char) : List Char :=
  match findStart startMarker true existing, findEnd endMarker existing with
  | some first, some last =>
      if first < last then
        existing.take first ++ asEol (trwSection.rdropWhile (· == '\n')) (fileEol existing) ++
          existing.drop (last + endMarker.length)
      else appendBlock existing trwSection
  | _, _ => appendBlock existing trwSection

end TrwMcp.Bootstrap.Markers
