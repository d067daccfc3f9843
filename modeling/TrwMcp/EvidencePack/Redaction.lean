import TrwMcp.Intent.Dumps

/-!
# The redacting entry writer

An entry of the pack is one JSON object: where it comes from, when, a label, and the fields copied
from the source, which are spread beside them. Every text passes the chokepoint; a value whose key
alone makes it a secret is replaced by a placeholder. Keys are texts too, so two keys may come out
as one, or as a key the writer has a use for.
-/

namespace TrwMcp.EvidencePack

open Handoff Intent Lib

/-- `FIELD_CHAR_LIMIT` -/
def fieldCharLimit : Nat := 4096

/-- `REDACTOR_NAME` -/
def redactorName : String := "redact_secrets+redact_paths"

def probeText : String := "trw-evidence-pack-context-probe"

def fallbackPlaceholder : String := "<REDACTED:context>"

def labelObserved : String := "observed"

def labelRedacted : String := "redacted"

def labelUnknown : String := "unknown"

/-- What the writer is built on: `redact_secrets`, and the project root. -/
structure Chokepoint where
  redactSecrets : String → String
  /-- `str(project_root)` -/
  root : String
  /-- `str(Path(text))` -/
  pathText : String → String

/-- `needle in text` -/
def occursIn (needle text : String) : Bool := decide (needle.toList <:+: text.toList)

/-- `text.replace(old, new)`, where `old` is not empty. -/
@[grind =] def replaceChars (old new : List Char) : Nat → List Char → List Char
  | 0, cs => cs
  | _ + 1, [] => []
  | n + 1, c :: cs =>
      if old.isPrefixOf (c :: cs) then new ++ replaceChars old new n ((c :: cs).drop old.length)
      else c :: replaceChars old new n cs

/-- `redact_paths` -/
def redactPaths (text form : String) : String :=
  String.ofList (replaceChars form.toList "<project>".toList (text.length + 1) text.toList)

def isNameChar (c : Char) : Bool := c.isAlpha || c = '_'

/-- `_PLACEHOLDER_RE.match`: `<REDACTED:`, letters and underscores, `>`. -/
def matchPlaceholder (cs : List Char) : Option (List Char) :=
  if "<REDACTED:".toList.isPrefixOf cs then
    let name := (cs.drop 10).takeWhile isNameChar
    if name ≠ [] ∧ (cs.drop (10 + name.length)).head? = some '>' then
      some (cs.take (11 + name.length))
    else none
  else none

/-- `_PLACEHOLDER_RE.search` -/
@[grind =] def searchPlaceholder : List Char → Option (List Char)
  | [] => none
  | c :: cs => (matchPlaceholder (c :: cs)).or (searchPlaceholder cs)

/-- The loop that makes the probe longer until it is not in the key. -/
@[grind =] def freshProbe (key : String) : Nat → String → String
  | 0, probe => probe
  | n + 1, probe => if occursIn probe key then freshProbe key n (probe ++ "-x") else probe

def join (path key : String) : String := if path = "" then key else path ++ "." ++ key

/-- `_WalkState` -/
structure WalkState where
  changed : Bool := false
  truncated : Dict String Nat := []

section

variable (point : Chokepoint)

/-- `EntryWriter._root_forms` -/
def Chokepoint.rootForms : List String :=
  let seenForm := point.redactSecrets point.root
  if seenForm = point.root then [point.root] else [point.pathText seenForm, point.root]

/-- `EntryWriter.redact` -/
def Chokepoint.redact (text : String) : String :=
  point.rootForms.foldl redactPaths (point.redactSecrets text)

/-- `EntryWriter._context_placeholder` -/
def Chokepoint.contextPlaceholder (key : String) : Option String :=
  let probe := freshProbe key (key.length + 1) probeText
  let gone (form : String) : Option String :=
    let redacted := point.redactSecrets form
    if occursIn probe redacted then none
    else some (((searchPlaceholder redacted.toList).map String.ofList).getD fallbackPlaceholder)
  (gone (String.ofList
    ('\x7b' :: (jsonString key ++ ':' :: ' ' :: (jsonString probe ++ ['\x7d']))))).or
      (gone (key ++ "=" ++ probe))

/-- The placeholder a value gets; `None` and booleans never do. -/
def Chokepoint.placeholderFor (key : String) : Json → Option String
  | .null => none
  | .bool _ => none
  | _ => point.contextPlaceholder key

/-- `EntryWriter._text` -/
def Chokepoint.text (text path : String) (state : WalkState) : String × WalkState :=
  let redacted := point.redact text
  let state := { state with changed := state.changed || redacted != text }
  if fieldCharLimit < redacted.length then
    (String.ofList (redacted.toList.take fieldCharLimit),
      { state with truncated := Dict.set state.truncated path redacted.length })
  else (redacted, state)

mutual

/-- `EntryWriter._walk` -/
@[grind =] def walk : Json → String → WalkState → Json × WalkState
  | .str s, path, state =>
      let (text, state) := point.text s path state
      (.str text, state)
  | .arr xs, path, state =>
      let (items, state) := walkItems xs path 0 state
      (.arr items, state)
  | .obj ms, path, state =>
      let (walked, state) := walkMapping ms path [] state
      (.obj walked, state)
  | v, _, state => (v, state)

@[grind =] def walkItems : List Json → String → Nat → WalkState → List Json × WalkState
  | [], _, _, state => ([], state)
  | x :: xs, path, index, state =>
      let (item, state) := walk x (path ++ "[" ++ toString index ++ "]") state
      let (items, state) := walkItems xs path (index + 1) state
      (item :: items, state)

/-- `EntryWriter._walk_mapping`, from its middle. -/
@[grind =] def walkMapping : List (String × Json) → String → Dict String Json → WalkState →
    Dict String Json × WalkState
  | [], _, walked, state => (walked, state)
  | (rawKey, item) :: ms, path, walked, state =>
      let (key, state) := point.text rawKey (join path "<key>") state
      match point.placeholderFor rawKey item with
      | some placeholder =>
          walkMapping ms path (Dict.set walked key (.str placeholder))
            { state with changed := true }
      | none =>
          let (value, state) := walk item (join path key) state
          walkMapping ms path (Dict.set walked key value) state

end

end

/-! ## The entry -/

section

variable (lib : Stdlib)

mutual

/-- `canonical_json`: `json.dumps(value, sort_keys=True, ensure_ascii=False)`, compact. -/
@[grind =] def canonicalText : Json → List Char
  | .null => ['n', 'u', 'l', 'l']
  | .bool true => ['t', 'r', 'u', 'e']
  | .bool false => ['f', 'a', 'l', 's', 'e']
  | .int n => (toString n).toList
  | .float text => floatText lib text
  | .str s => jsonString s
  | .arr xs => '[' :: (joinComma (canonicalItems xs) ++ [']'])
  | .obj ms =>
      '\x7b' :: (joinComma
        ((sortByKey (canonicalMembers ms)).map fun m => jsonString m.1 ++ ':' :: m.2) ++ ['\x7d'])

@[grind =] def canonicalItems : List Json → List (List Char)
  | [] => []
  | x :: xs => canonicalText x :: canonicalItems xs

@[grind =] def canonicalMembers : List (String × Json) → List (String × List Char)
  | [] => []
  | (k, x) :: ms => (k, canonicalText x) :: canonicalMembers ms

end

/-- `hashlib.sha256(canonical_json(entry)).hexdigest()` -/
def entryDigest (entry : Dict String Json) : String :=
  lib.sha256 (String.ofList (canonicalText lib (.obj entry))).toUTF8

variable (point : Chokepoint)

/-- The `truncated` member: the paths once more redacted, in the order of the paths. -/
def Chokepoint.truncatedMap (truncated : Dict String Nat) : Json :=
  .obj (Dict.ofPairs ((sortByKey truncated).map fun m => (point.redact m.1, Json.int m.2)))

/-- `EntryWriter.seal` -/
def Chokepoint.seal (source : List (String × Json)) (asOf : String)
    (fields : List (String × Json)) (reason : Option String) : Dict String Json :=
  let (walkedSource, state) := walkMapping point source "source" [] {}
  let (walkedFields, state) := walkMapping point fields "" [] state
  let entry := walkedFields.foldl (fun entry m => Dict.set entry m.1 m.2)
    [("source", .obj walkedSource), ("as_of", .str asOf)]
  let entry :=
    match reason with
    | some reason => Dict.set (Dict.set entry "label" (.str labelUnknown)) "reason" (.str reason)
    | none =>
        Dict.set entry "label" (.str (if state.changed then labelRedacted else labelObserved))
  let entry := if state.changed then Dict.set entry "redactor" (.str redactorName) else entry
  let entry :=
    if state.truncated = [] then entry
    else Dict.set entry "truncated" (point.truncatedMap state.truncated)
  Dict.set entry "sha256" (.str (entryDigest lib entry))

end

end TrwMcp.EvidencePack
