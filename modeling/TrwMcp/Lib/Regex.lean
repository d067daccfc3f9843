import Mathlib.Data.List.Basic

/-!
# Backtracking patterns

A pattern maps a position of the text to every position it can stop at, in the order a
backtracking matcher tries them. Only whether a match exists is ever asked, so no groups are kept.
A position is the text before it, last character first, and the text after it.
-/

namespace TrwMcp.Lib.Regex

abbrev Pos := List Char × List Char

abbrev Pattern := Pos → List Pos

/-- One character of a class. -/
def char (p : Char → Bool) : Pattern
  | (before, c :: after) => if p c then [(c :: before, after)] else []
  | (_, []) => []

/-- The characters of a literal, in order. -/
def literal (w : String) : Pattern := go w.toList
where
  go : List Char → Pattern
    | [], pos => [pos]
    | c :: cs, pos => (char (· == c) pos).flatMap (go cs)

def seq (m n : Pattern) : Pattern := fun pos => (m pos).flatMap n

def alt (m n : Pattern) : Pattern := fun pos => m pos ++ n pos

/-- `m?` -/
def opt (m : Pattern) : Pattern := fun pos => m pos ++ [pos]

/-- `m{lo,}` or `m{lo,hi}`, greedy, for a pattern that never matches the empty text. -/
def rep (m : Pattern) (lo : Nat) (hi : Option Nat) : Pattern := fun pos =>
  go (pos.2.length + 1) lo hi pos
where
  go : Nat → Nat → Option Nat → Pattern
    | 0, _, _, _ => []
    | fuel + 1, lo, hi, pos =>
        let more := if hi = some 0 then [] else
          (m pos).flatMap (go fuel (lo - 1) (hi.map (· - 1)))
        more ++ if lo = 0 then [pos] else []

def star (m : Pattern) : Pattern := rep m 0 none

def plus (m : Pattern) : Pattern := rep m 1 none

/-- `^` -/
def start : Pattern := fun pos => if pos.1.isEmpty then [pos] else []

/-- `$`: the end of the text, or before a final line feed. -/
def stop : Pattern := fun pos => if pos.2.isEmpty || pos.2 == ['\n'] then [pos] else []

/-- `(?!m)` -/
def notAhead (m : Pattern) : Pattern := fun pos => if (m pos).isEmpty then [pos] else []

/-- `(?<!c)` for a class of characters. -/
def notBehind (p : Char → Bool) : Pattern := fun pos => if pos.1.head?.any p then [] else [pos]

/-- Every position of the text after `pos`, and `pos`. -/
@[grind =] def positions : List Char → List Char → List Pos
  | before, [] => [(before, [])]
  | before, c :: after => (before, c :: after) :: positions (c :: before) after

/-- `re.search(m, text) is not None` -/
def search (m : Pattern) (text : String) : Bool :=
  (positions [] text.toList).any fun pos => !(m pos).isEmpty

/-! ## Classes -/

def range (a b c : Char) : Bool := decide (a.toNat ≤ c.toNat ∧ c.toNat ≤ b.toNat)

def isLower : Char → Bool := range 'a' 'z'

def isUpper : Char → Bool := range 'A' 'Z'

def isDigit : Char → Bool := range '0' '9'

def isAlnum (c : Char) : Bool := isLower c || isUpper c || isDigit c

/-- `\s` in a text pattern: the Unicode white space `str.isspace` knows. -/
def isSpace (c : Char) : Bool :=
  range '\t' '\x0d' c || range '\x1c' ' ' c || range '\u2000' '\u200a' c ||
    ['\x85', '\xa0', '\u1680', '\u2028', '\u2029', '\u202f', '\u205f', '\u3000'].contains c

instance lawfulChars : LawfulBEq (List Char) := inferInstance

example : search (seq start (seq (rep (char isDigit) 2 (some 3)) stop)) "123" = true := by decide

end TrwMcp.Lib.Regex
