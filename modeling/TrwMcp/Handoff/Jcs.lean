import TrwMcp.Handoff.Json

/-!
# RFC 8785 canonical bytes and the record digest

`jcs` writes a value with object keys in the order of their UTF-16 code units, no blanks, integers
in decimal and strings escaped only where JSON requires it. `digest` is the SHA-256 of those bytes
over everything but the top-level `integrity` member, and `seal` records it in that member.

SHA-256 is a parameter: nothing here depends on how it is computed.
-/

namespace TrwMcp.Handoff

open Lib

/-- What the Python runtime computes and this development does not: the hash, the Unicode database,
floating point, the decoding of JSON bytes that are not plain UTF-8 and the texts of its own
errors. -/
structure Stdlib where
  /-- `hashlib.sha256(raw).hexdigest()` -/
  sha256 : ByteArray → String
  /-- `unicodedata.normalize("NFKC", text)` -/
  nfkc : String → String
  /-- `unicodedata.normalize("NFC", text)` -/
  nfc : String → String
  /-- `text.casefold()` -/
  casefold : String → String
  /-- `unicodedata.category(ch)` -/
  category : Char → String
  /-- `json.loads(raw)` of bytes that are not UTF-8 text, or decode to a lone surrogate -/
  jsonOther : ByteArray → Py Json
  /-- `str(exc)` of the decoding or JSON error the bytes raise -/
  errorText : ByteArray → String
  /-- `repr(value)` -/
  repr : Json → String
  /-- the first 160 characters of the message `jsonschema` gives an error: the keyword, the path,
  the document -/
  schemaMessage : String → String → Json → String
  /-- `float(text).is_integer()` -/
  floatIsInteger : String → Bool
  /-- how `float(text)` compares with an integer, if it is not a NaN -/
  floatCompare : String → Int → Option Ordering
  /-- `fnmatch.fnmatchcase(name, pattern)` -/
  fnmatchcase : String → String → Bool

/-- `_SAFE_INT`: the I-JSON safe range. -/
def safeInt : Int := 2 ^ 53 - 1

/-! ## Key order -/

/-- The UTF-16 code units of one character. -/
def utf16Units (c : Char) : List Nat :=
  if c.toNat < 0x10000 then [c.toNat]
  else [0xD800 + (c.toNat - 0x10000) / 0x400, 0xDC00 + (c.toNat - 0x10000) % 0x400]

/-- `_utf16_key`: the key's UTF-16 big-endian bytes. -/
def utf16Key (key : String) : List Nat :=
  key.toList.flatMap fun c => (utf16Units c).flatMap fun u => [u / 256, u % 256]

/-- `k` sorts no later than `l` under `key=_utf16_key`; byte strings compare lexicographically. -/
def keyLe (k l : String) : Prop := utf16Key k ≤ utf16Key l

instance : DecidableRel keyLe := fun k l => inferInstanceAs (Decidable (utf16Key k ≤ utf16Key l))

/-- `sorted(d, key=_utf16_key)`, with the values carried along. -/
def sortMembers {α : Type} (ms : List (String × α)) : List (String × α) :=
  ms.insertionSort fun a b => keyLe a.1 b.1

/-! ## The encoder -/

/-- The lower-case hexadecimal digit of `n < 16`. -/
def hexDigit (n : Nat) : Char := if n < 10 then Char.ofNat (48 + n) else Char.ofNat (87 + n)

/-- What `json.dumps` writes for one character of a string under `ensure_ascii=False`. -/
def escapeChar (c : Char) : List Char :=
  if c = '"' then ['\\', '"']
  else if c = '\\' then ['\\', '\\']
  else if c = '\n' then ['\\', 'n']
  else if c = '\r' then ['\\', 'r']
  else if c = '\t' then ['\\', 't']
  else if c.toNat = 8 then ['\\', 'b']
  else if c.toNat = 12 then ['\\', 'f']
  else if c.toNat < 32 then ['\\', 'u', '0', '0', hexDigit (c.toNat / 16), hexDigit (c.toNat % 16)]
  else [c]

/-- `_string`: a JSON string. The lone-surrogate refusal has no counterpart here. -/
def jsonString (value : String) : List Char :=
  '"' :: (value.toList.flatMap escapeChar ++ ['"'])

/-- `",".join(parts)`. -/
def joinComma (parts : List (List Char)) : List Char := [','].intercalate parts

mutual

/-- `_encode`. The members of a dict are encoded in key order, so the first refusal in that order
is the one raised. -/
@[grind =] def encode : Json → Py (List Char)
  | .null => pure ['n', 'u', 'l', 'l']
  | .bool true => pure ['t', 'r', 'u', 'e']
  | .bool false => pure ['f', 'a', 'l', 's', 'e']
  | .float _ => throw (.jcsError "X-0 non-integer number (R-INT-3)")
  | .int n =>
      if -safeInt ≤ n ∧ n ≤ safeInt then pure (toString n).toList
      else throw (.jcsError "X-0 integer outside the I-JSON safe range (R-INT-3)")
  | .str s => pure (jsonString s)
  | .arr xs => do
      let parts ← (encodeItems xs).mapM id
      return '[' :: (joinComma parts ++ [']'])
  | .obj ms => do
      let parts ← (sortMembers (encodeMembers ms)).mapM fun m => do return jsonString m.1 ++ ':' :: (← m.2)
      return '{' :: (joinComma parts ++ ['}'])

@[grind =] def encodeItems : List Json → List (Py (List Char))
  | [] => []
  | x :: xs => encode x :: encodeItems xs

@[grind =] def encodeMembers : List (String × Json) → List (String × Py (List Char))
  | [] => []
  | (k, x) :: ms => (k, encode x) :: encodeMembers ms

end

/-- `jcs`: the canonical UTF-8 bytes. -/
def jcs (value : Json) : Py ByteArray := do
  return (String.ofList (← encode value)).toUTF8

/-- The document without its top-level `integrity`. -/
def withoutIntegrity (doc : Json) : Json :=
  .obj (doc.members.filter fun m => m.1 != "integrity")

/-- `digest`. -/
def digest (lib : Stdlib) (doc : Json) : Py String := do
  return "sha256:" ++ lib.sha256 (← jcs (withoutIntegrity doc))

/-- The signature an existing `integrity` carries, if any. -/
def oldSignature (doc : Json) : Option Json :=
  match doc.get? "integrity" with
  | some (.obj ms) => match Dict.lookup ms "signature" with
    | some signature => if signature.truthy then some signature else none
    | none => none
  | _ => none

/-- `seal`. -/
def sealDoc (lib : Stdlib) (doc : Json) : Py Json := do
  if (← doc.get "type") = some (.str "event") then
    throw (.ahrInputError "events are never sealed; the store assigns their fields")
  let base := [("canonicalization", Json.str "RFC8785"), ("digest", Json.str (← digest lib doc))]
  let integrity := base ++ match oldSignature doc with
    | some signature => [("signature", signature)]
    | none => []
  return .obj (Dict.set doc.members "integrity" (.obj integrity))

/-! ## The domain of the encoder

A dict has distinct keys, an integer is in the safe range and there is no float, all the way
down. -/

mutual

/-- The values `_encode` is exact on. -/
@[grind =] def Json.isSafe : Json → Bool
  | .null | .bool _ | .str _ => true
  | .float _ => false
  | .int n => decide (-safeInt ≤ n ∧ n ≤ safeInt)
  | .arr xs => safeItems xs
  | .obj ms => decide (ms.map (·.1)).Nodup && safeMembers ms

@[grind =] def safeItems : List Json → Bool
  | [] => true
  | x :: xs => x.isSafe && safeItems xs

@[grind =] def safeMembers : List (String × Json) → Bool
  | [] => true
  | (_, x) :: ms => x.isSafe && safeMembers ms

end

/-! ## Python's `==`

Dicts compare as finite maps: as many members, and each key of one is a key of the other with an
equal value. A boolean is kept apart from an integer. -/

mutual

@[grind =] def Json.eqv : Json → Json → Bool
  | .null, .null => true
  | .bool a, .bool b => a == b
  | .int a, .int b => a == b
  | .float a, .float b => a == b
  | .str a, .str b => a == b
  | .arr xs, .arr ys => eqvItems xs ys
  | .obj ms, .obj ns => ms.length == ns.length && eqvMembers ms ns
  | _, _ => false

@[grind =] def eqvItems : List Json → List Json → Bool
  | [], [] => true
  | x :: xs, y :: ys => x.eqv y && eqvItems xs ys
  | _, _ => false

@[grind =] def eqvMembers : List (String × Json) → List (String × Json) → Bool
  | [], _ => true
  | (k, x) :: ms, ns => (match Dict.lookup ns k with
      | some y => x.eqv y
      | none => false) && eqvMembers ms ns

end

/-! ## Canonical form

The same value with the members of every dict in key order, which is what the text of its
encoding denotes. -/

mutual

@[grind =] def Json.canon : Json → Json
  | .arr xs => .arr (canonItems xs)
  | .obj ms => .obj (sortMembers (canonMembers ms))
  | j => j

@[grind =] def canonItems : List Json → List Json
  | [] => []
  | x :: xs => x.canon :: canonItems xs

@[grind =] def canonMembers : List (String × Json) → List (String × Json)
  | [] => []
  | (k, x) :: ms => (k, x.canon) :: canonMembers ms

end

example : (encode (.obj [("b", .int (-3)), ("a", .arr [.null, .str "q\""])])).toOption.map
    String.ofList = some "\x7b\"a\":[null,\"q\\\"\"],\"b\":-3\x7d" := by decide

end TrwMcp.Handoff
