import TrwMcp.Handoff.Loads

/-!
# `json.dumps` with sorted keys

The text the intent modules compare and hash: members in key order, everything outside printable
ASCII escaped. The separators are the caller's.
-/

namespace TrwMcp.Intent

open Handoff Lib

/-- `\uXXXX` -/
def unicodeEscape (unit : Nat) : List Char :=
  ['\\', 'u', hexDigit (unit / 4096), hexDigit (unit / 256 % 16), hexDigit (unit / 16 % 16),
    hexDigit (unit % 16)]

/-- What `json.dumps` writes for one character of a string. -/
def asciiChar (c : Char) : List Char :=
  if c = '"' then ['\\', '"']
  else if c = '\\' then ['\\', '\\']
  else if c = '\n' then ['\\', 'n']
  else if c = '\r' then ['\\', 'r']
  else if c = '\t' then ['\\', 't']
  else if c.toNat = 8 then ['\\', 'b']
  else if c.toNat = 12 then ['\\', 'f']
  else if 32 ≤ c.toNat ∧ c.toNat ≤ 126 then [c]
  else (utf16Units c).flatMap unicodeEscape

def asciiString (value : String) : List Char :=
  '"' :: (value.toList.flatMap asciiChar ++ ['"'])

/-- Keys in the order Python sorts strings in. -/
def sortByKey {α : Type} (ms : List (String × α)) : List (String × α) :=
  ms.insertionSort fun m n => m.1 ≤ n.1

/-- The two separators of `json.dumps`. -/
structure Separators where
  item : List Char
  key : List Char

def spaced : Separators := ⟨[',', ' '], [':', ' ']⟩

def compact : Separators := ⟨[','], [':']⟩

section

variable (lib : Stdlib) (sep : Separators)

/-- `float.__repr__`, with the three values JSON has no numeral for. -/
def floatText (text : String) : List Char :=
  match lib.repr (.float text) with
  | "nan" => ['N', 'a', 'N']
  | "inf" => "Infinity".toList
  | "-inf" => "-Infinity".toList
  | shown => shown.toList

mutual

/-- `json.dumps(value, sort_keys=True, separators=…)` -/
@[grind =] def dumps : Json → List Char
  | .null => ['n', 'u', 'l', 'l']
  | .bool true => ['t', 'r', 'u', 'e']
  | .bool false => ['f', 'a', 'l', 's', 'e']
  | .int n => (toString n).toList
  | .float text => floatText lib text
  | .str s => asciiString s
  | .arr xs => '[' :: (sep.item.intercalate (dumpsItems xs) ++ [']'])
  | .obj ms =>
      '{' :: (sep.item.intercalate
        ((sortByKey (dumpsMembers ms)).map fun m => asciiString m.1 ++ sep.key ++ m.2) ++ ['}'])

@[grind =] def dumpsItems : List Json → List (List Char)
  | [] => []
  | x :: xs => dumps x :: dumpsItems xs

@[grind =] def dumpsMembers : List (String × Json) → List (String × List Char)
  | [] => []
  | (k, x) :: ms => (k, dumps x) :: dumpsMembers ms

end

end

end TrwMcp.Intent
