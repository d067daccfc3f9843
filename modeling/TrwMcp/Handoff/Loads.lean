import TrwMcp.Handoff.Jcs

/-!
# Parsing JSON text

The grammar of `json.loads`, with what it calls at the end of every object
(`object_pairs_hook`) as a parameter, and the record parser `loads` on top of it: a size bound,
strict UTF-8, no duplicate member, an object at the top.

Nested values are parsed with fuel. Every call consumes a character or hands the text to a call
that does, so twice the length of the text is enough. Python's own limit is the interpreter's
stack, which this model does not have. A parser returns what it read and the text left.
-/

namespace TrwMcp.Handoff

open Lib

/-! ## Lexical level -/

/-- JSON white space. -/
def isWs (c : Char) : Bool := c = ' ' || c = '\t' || c = '\n' || c = '\r'

def skipWs (cs : List Char) : List Char := cs.dropWhile isWs

/-- The value of a hexadecimal digit of either case. -/
def hexValue (c : Char) : Option Nat :=
  if 48 ≤ c.toNat ∧ c.toNat ≤ 57 then some (c.toNat - 48)
  else if 97 ≤ c.toNat ∧ c.toNat ≤ 102 then some (c.toNat - 87)
  else if 65 ≤ c.toNat ∧ c.toNat ≤ 70 then some (c.toNat - 55)
  else none

/-- The code unit after `\u`, and the text left. -/
def hexUnit : List Char → Option (Nat × List Char)
  | a :: b :: c :: d :: rest => do
      let a ← hexValue a
      let b ← hexValue b
      let c ← hexValue c
      let d ← hexValue d
      return (((a * 16 + b) * 16 + c) * 16 + d, rest)
  | _ => none

/-- One step of `scanstring`: the closing quote, a character, or a code unit from `\u`. -/
inductive Lexeme where
  | quote (rest : List Char)
  | char (c : Char) (rest : List Char)
  | unit (u : Nat) (rest : List Char)
  | bad

/-- The character a one-letter escape stands for. -/
def unescape (c : Char) : Option Char :=
  if c = '"' then some '"'
  else if c = '\\' then some '\\'
  else if c = '/' then some '/'
  else if c = 'b' then some (Char.ofNat 8)
  else if c = 'f' then some (Char.ofNat 12)
  else if c = 'n' then some '\n'
  else if c = 'r' then some '\r'
  else if c = 't' then some '\t'
  else none

def lexeme : List Char → Lexeme
  | [] => .bad
  | c :: rest =>
      if c = '"' then .quote rest
      else if c = '\\' then
        match rest with
        | [] => .bad
        | e :: rest =>
            if e = 'u' then
              match hexUnit rest with
              | some (u, rest) => .unit u rest
              | none => .bad
            else match unescape e with
              | some c => .char c rest
              | none => .bad
      -- strict: a control character must be escaped
      else if c.toNat < 32 then .bad
      else .char c rest

def isHigh (u : Nat) : Bool := decide (0xD800 ≤ u ∧ u ≤ 0xDBFF)

def isLow (u : Nat) : Bool := decide (0xDC00 ≤ u ∧ u ≤ 0xDFFF)

/-- `scanstring`, after the opening quote. A lone surrogate stops it, see `PyErr.loneSurrogate`. -/
@[grind =] def scanString : Nat → List Char → Py (List Char × List Char)
  | 0, _ => throw .jsonDecodeError
  | n + 1, cs =>
      match lexeme cs with
      | .bad => throw .jsonDecodeError
      | .quote rest => pure ([], rest)
      | .char c rest => do
          let (s, rest) ← scanString n rest
          return (c :: s, rest)
      | .unit u rest =>
          if isHigh u then
            match lexeme rest with
            | .unit l rest =>
                if isLow l then do
                  let (s, rest) ← scanString n rest
                  return (Char.ofNat (0x10000 + (u - 0xD800) * 0x400 + (l - 0xDC00)) :: s, rest)
                else throw .loneSurrogate
            | _ => throw .loneSurrogate
          else if isLow u then throw .loneSurrogate
          else do
            let (s, rest) ← scanString n rest
            return (Char.ofNat u :: s, rest)

/-- The fraction of a number, if the text starts with one. -/
def scanFraction : List Char → List Char × List Char
  | '.' :: d :: rest =>
      if d.isDigit then ('.' :: d :: rest.takeWhile Char.isDigit, rest.dropWhile Char.isDigit)
      else ([], '.' :: d :: rest)
  | cs => ([], cs)

/-- The exponent of a number, if the text starts with one. -/
def scanExponent : List Char → List Char × List Char
  | e :: rest =>
      if e = 'e' ∨ e = 'E' then
        let sign := (rest.take 1).takeWhile fun c => c = '+' || c = '-'
        let digits := (rest.drop sign.length).takeWhile Char.isDigit
        if digits.isEmpty then ([], e :: rest)
        else (e :: (sign ++ digits), rest.drop (sign.length + digits.length))
      else ([], e :: rest)
  | [] => ([], [])

/-- The digits of an integer part: `0`, or digits that do not start with `0`. -/
def scanDigits : List Char → Option (List Char × List Char)
  | '0' :: rest => some (['0'], rest)
  | d :: rest =>
      if d.isDigit then some (d :: rest.takeWhile Char.isDigit, rest.dropWhile Char.isDigit) else none
  | [] => none

/-- `int(digits)` refuses more digits than this. -/
def maxIntDigits : Nat := 4300

/-- A number after its sign. -/
def scanUnsigned (negative : Bool) (cs : List Char) : Py (Json × List Char) :=
  match scanDigits cs with
  | none => throw .jsonDecodeError
  | some (digits, rest) =>
      let (fraction, rest) := scanFraction rest
      let (exponent, rest) := scanExponent rest
      if fraction.isEmpty && exponent.isEmpty then
        if digits.length > maxIntDigits then throw .valueError
        else
          let n := Nat.ofDigitChars 10 digits 0
          pure (.int (if negative then -(n : Int) else n), rest)
      else
        let sign := if negative then ['-'] else []
        pure (.float (String.ofList (sign ++ digits ++ fraction ++ exponent)), rest)

/-- `cs` without the literal `w` it starts with. -/
def dropLiteral (w : String) (cs : List Char) : Option (List Char) :=
  if w.toList.isPrefixOf cs then some (cs.drop w.toList.length) else none

/-- A value that is not a string, an array or an object. -/
def scanScalar (cs : List Char) : Py (Json × List Char) :=
  match cs with
  | '-' :: rest =>
      match dropLiteral "Infinity" rest with
      | some rest => pure (.float "-Infinity", rest)
      | none => scanUnsigned true rest
  | _ =>
      if let some rest := dropLiteral "null" cs then pure (.null, rest)
      else if let some rest := dropLiteral "true" cs then pure (.bool true, rest)
      else if let some rest := dropLiteral "false" cs then pure (.bool false, rest)
      else if let some rest := dropLiteral "NaN" cs then pure (.float "NaN", rest)
      else if let some rest := dropLiteral "Infinity" cs then pure (.float "Infinity", rest)
      else scanUnsigned false cs

/-! ## Values -/

section

variable (hook : List (String × Json) → Py Json)

mutual

/-- `scan_once`. -/
@[grind =] def scanOnce : Nat → List Char → Py (Json × List Char)
  | 0, _ => throw .jsonDecodeError
  | n + 1, cs =>
      match cs with
      | '"' :: rest => do
          let (s, rest) ← scanString rest.length rest
          return (.str (String.ofList s), rest)
      | '[' :: rest =>
          match skipWs rest with
          | ']' :: rest => pure (.arr [], rest)
          | rest => do
              let (xs, rest) ← scanItems n rest
              return (.arr xs, rest)
      | '\x7b' :: rest =>
          match skipWs rest with
          | '\x7d' :: rest => do return (← hook [], rest)
          | rest => do
              let (ms, rest) ← scanMembers n rest
              return (← hook ms, rest)
      | cs => scanScalar cs

/-- The items of an array up to its closing bracket. -/
@[grind =] def scanItems : Nat → List Char → Py (List Json × List Char)
  | 0, _ => throw .jsonDecodeError
  | n + 1, cs => do
      let (x, rest) ← scanOnce n cs
      match skipWs rest with
      | ']' :: rest => return ([x], rest)
      | ',' :: rest =>
          let (xs, rest) ← scanItems n (skipWs rest)
          return (x :: xs, rest)
      | _ => throw .jsonDecodeError

/-- The members of an object up to its closing brace. -/
@[grind =] def scanMembers : Nat → List Char → Py (List (String × Json) × List Char)
  | 0, _ => throw .jsonDecodeError
  | n + 1, cs =>
      match cs with
      | '"' :: rest => do
          let (k, rest) ← scanString rest.length rest
          match skipWs rest with
          | ':' :: rest =>
              let (x, rest) ← scanOnce n (skipWs rest)
              match skipWs rest with
              | '\x7d' :: rest => return ([(String.ofList k, x)], rest)
              | ',' :: rest =>
                  let (ms, rest) ← scanMembers n (skipWs rest)
                  return ((String.ofList k, x) :: ms, rest)
              | _ => throw .jsonDecodeError
          | _ => throw .jsonDecodeError
      | _ => throw .jsonDecodeError

end

/-- `json.loads(text, object_pairs_hook=hook)`. -/
def parseText (text : String) : Py Json :=
  match text.toList with
  | '\uFEFF' :: _ => throw .jsonDecodeError
  | cs => do
      let (x, rest) ← scanOnce hook (2 * cs.length + 1) (skipWs cs)
      if (skipWs rest).isEmpty then return x else throw .jsonDecodeError

end

/-! ## The record parser -/

/-- The first key that an earlier pair already has. -/
@[grind =] def firstDuplicate (seen : List String) : List (String × Json) → Option String
  | [] => none
  | (k, _) :: rest => if k ∈ seen then some k else firstDuplicate (k :: seen) rest

/-- `_strict_object`. -/
def strictObject (pairs : List (String × Json)) : Py Json :=
  match firstDuplicate [] pairs with
  | some key => throw (.ahrParseError ⟨"R-INT-4", "", "duplicate JSON member: " ++ key⟩)
  | none => pure (.obj pairs)

/-- Without a hook, a later member replaces an earlier one's value. -/
def plainObject (pairs : List (String × Json)) : Py Json :=
  pure (.obj (Dict.ofPairs pairs))

def maxCanonicalBytes : Nat := 32 * 1024

def maxInputBytes : Nat := 8 * maxCanonicalBytes

/-- `loads`. The text `exc` of the interpreter's own errors is the library's. -/
def loads (lib : Stdlib) (raw : ByteArray) : Py Json := do
  if raw.size > maxInputBytes then
    throw (.ahrParseError ⟨"R-SIZE-2", "", "input of " ++ toString raw.size ++ " bytes exceeds "
      ++ toString maxInputBytes⟩)
  match String.fromUTF8? raw with
  | none => throw (.ahrParseError ⟨"R-INT-4", "", "not UTF-8: " ++ lib.errorText raw⟩)
  | some text =>
      match parseText strictObject text with
      | .error .jsonDecodeError =>
          throw (.ahrParseError ⟨"R-INT-4", "", "not JSON: " ++ lib.errorText raw⟩)
      | .error e => throw e
      | .ok (.obj ms) => pure (.obj ms)
      | .ok _ => throw (.ahrParseError ⟨"R-DOC-1", "", "top level is not a JSON object"⟩)

/-- Whether `json.detect_encoding` says UTF-8: no byte-order mark, and no zero byte where UTF-16 or
UTF-32 text would have one. -/
def detectsUtf8 (raw : List UInt8) : Bool :=
  match raw with
  | 0xFE :: 0xFF :: _ | 0xFF :: 0xFE :: _ | 0xEF :: 0xBB :: 0xBF :: _ => false
  | a :: b :: _ :: _ :: _ => a != 0 && b != 0
  | [a, b] => a != 0 && b != 0
  | _ => true

/-- `json.loads(raw)` on bytes. -/
def jsonLoads (lib : Stdlib) (raw : ByteArray) : Py Json :=
  match if detectsUtf8 raw.toList then String.fromUTF8? raw else none with
  | none => lib.jsonOther raw
  | some text =>
      match parseText plainObject text with
      | .error .loneSurrogate => lib.jsonOther raw
      | result => result

end TrwMcp.Handoff
