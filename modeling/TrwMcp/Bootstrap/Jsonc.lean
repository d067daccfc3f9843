import TrwMcp.Handoff.Loads

/-!
# JSON with comments

An existing `opencode.json` may hold comments, so they are taken out before the text is parsed:
block comments first, wherever their marks stand, and then line comments outside of strings. A
document is kept here as the pieces it is written in, which says where its strings and comments
are.
-/

namespace TrwMcp.Bootstrap.Jsonc

open Handoff

/-! ## The stripper -/

/-- A `*/` follows. -/
@[grind =] def hasClose : List Char → Bool
  | [] => false
  | '*' :: '/' :: _ => true
  | _ :: cs => hasClose cs

/-- `re.sub(r"/\*.*?\*/", "", content, flags=re.DOTALL)`, outside a comment or inside one. -/
@[grind =] def stripBlocks : Bool → List Char → List Char
  | _, [] => []
  | false, '/' :: '*' :: cs =>
      if hasClose cs then stripBlocks true cs else '/' :: stripBlocks false ('*' :: cs)
  | true, '*' :: '/' :: cs => stripBlocks false cs
  | false, c :: cs => c :: stripBlocks false cs
  | true, _ :: cs => stripBlocks true cs

/-- Where the scan for line comments stands: `in_string` and `escape_next`, or inside a comment. -/
inductive Mode where
  | code
  | string
  | escaped
  | comment
  deriving DecidableEq

/-- The loop of `_strip_jsonc_comments`. -/
@[grind =] def stripLines : Mode → List Char → List Char
  | _, [] => []
  | .escaped, c :: cs => c :: stripLines .string cs
  | .string, c :: cs =>
      if c = '\\' then c :: stripLines .escaped cs
      else if c = '"' then c :: stripLines .code cs
      else c :: stripLines .string cs
  | .code, c :: cs =>
      if c = '"' then c :: stripLines .string cs
      else if c = '/' ∧ cs.head? = some '/' then stripLines .comment cs
      else c :: stripLines .code cs
  | .comment, c :: cs => if c = '\n' then c :: stripLines .code cs else stripLines .comment cs

/-- `_strip_jsonc_comments` -/
def stripJsoncComments (content : List Char) : List Char :=
  stripLines .code (stripBlocks false content)

/-- `_parse_jsonc` -/
def parseJsonc (content : List Char) : Py Json :=
  parseText plainObject (String.ofList (stripJsoncComments content))

/-! ## Documents -/

/-- What a document is written in: characters of tokens and between tokens, string literals and
comments. -/
inductive Piece where
  | plain (c : Char)
  /-- the characters between the quotes, as they are written -/
  | literal (body : List Char)
  | line (comment : List Char)
  | block (comment : List Char)
  deriving DecidableEq

/-- The piece as it stands in the file. -/
def Piece.source : Piece → List Char
  | .plain c => [c]
  | .literal body => '"' :: (body ++ ['"'])
  | .line comment => '/' :: '/' :: comment
  | .block comment => '/' :: '*' :: (comment ++ ['*', '/'])

/-- The piece without its comment. -/
def Piece.token : Piece → List Char
  | .line _ | .block _ => []
  | p => p.source

def source (doc : List Piece) : List Char := doc.flatMap Piece.source

/-- The JSON text of a document. -/
def serialization (doc : List Piece) : List Char := doc.flatMap Piece.token

/-- No quote ends the literal before its end. -/
@[grind =] def isBody : List Char → Bool
  | [] => true
  | '\\' :: _ :: cs => isBody cs
  | c :: cs => c != '\\' && c != '"' && isBody cs

def Piece.Valid : Piece → Prop
  | .plain c => c ≠ '"' ∧ c ≠ '/'
  | .literal body => isBody body = true
  | .line comment => '\n' ∉ comment
  | .block comment => hasClose comment = false

/-- Comments stand between the other pieces, and a line comment ends with its line. -/
@[grind =] def Valid : List Piece → Prop
  | [] => True
  | p :: doc =>
      p.Valid ∧ (∀ comment, p = .line comment → doc = [] ∨ doc.head? = some (.plain '\n')) ∧
        Valid doc

/-! ## Where the stripper is right -/

/-- The text after the first `/*`. -/
@[grind =] def afterOpen : List Char → Option (List Char)
  | [] => none
  | '/' :: '*' :: cs => some cs
  | _ :: cs => afterOpen cs

/-- A block comment that starts in the text does not end in it. -/
@[grind =] def unclosed : Bool → List Char → Bool
  | _, [] => false
  | false, '/' :: '*' :: cs => if hasClose cs then unclosed true cs else true
  | true, '*' :: '/' :: cs => unclosed false cs
  | inside, _ :: cs => unclosed inside cs

/-- No match of the pattern for block comments starts in the piece, except in a line comment that
holds the whole match behind its two slashes. -/
def Piece.Apart (after : List Char) : Piece → Prop
  | .literal body => ∀ rest, afterOpen body = some rest → hasClose (rest ++ '"' :: after) = false
  | .line comment =>
      (comment.head? = some '*' → hasClose (comment.tail ++ after) = false) ∧
        (unclosed false comment = true → hasClose after = false)
  | _ => True

/-- Every match of the pattern for block comments is a block comment or lies in a line comment. -/
@[grind =] def Apart : List Piece → Prop
  | [] => True
  | p :: doc => p.Apart (source doc) ∧ Apart doc

end TrwMcp.Bootstrap.Jsonc
