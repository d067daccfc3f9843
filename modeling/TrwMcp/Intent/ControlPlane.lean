import TrwMcp.Intent.Dumps
import TrwMcp.Intent.Sidecar
import TrwMcp.Lib.Except
import TrwMcp.Lib.Regex

/-!
# The control plane

What one snapshot registers: intent hooks in the settings files, with their timeouts, and intent
hooks of the pre-commit configuration. `controlPlaneFindings` compares two snapshots. It compares
registrations through dictionaries, which keep the last registration of a key only.
-/

namespace TrwMcp.Intent

open Handoff Lib

/-- The bytes of a file: the text they encode, or bytes that are no UTF-8. -/
inductive Blob where
  | text (text : String)
  | binary (bytes : ByteArray)
  deriving DecidableEq

abbrev BlobReader := String → Option Blob

def enrollmentPath : String := ".trw/contracts/enrollment.yaml"
def enrollmentEvidencePath : String := ".trw/intent-enrollment-evidence.yaml"
def ledgerPath : String := ".trw/contracts/intent-override-ledger.jsonl"
def checkpointPath : String := ".trw/contracts/intent-override-ledger.checkpoint.json"
def approvalsPath : String := ".trw/contracts/weaken-edit-approvals.jsonl"
def trwConfigPath : String := ".trw/config.yaml"
def defaultContractPath : String := ".trw/contracts/must-not-happen.yaml"
def defaultGlobSidecarPath : String := ".trw/contracts/enrollment.globs"

/-- `SETTINGS_PATHS` -/
def settingsPaths : List String := ["trw-mcp/src/trw_mcp/data/settings.json", ".claude/settings.json"]

def evidencePaths : List String := [ledgerPath, checkpointPath, approvalsPath]

def evidenceVisibilityPath : String := ".trw/.gitignore"

/-- `EVIDENCE_VISIBILITY_RULES` -/
def evidenceVisibilityRules : List String :=
  ["!contracts/intent-override-ledger.jsonl", "!contracts/weaken-edit-approvals.jsonl"]

def unparsable : String := "<unparsable>"

def clientDefaultTimeout : Int := 600

/-- `needle in text` -/
def contains (needle : String) (text : List Char) : Bool :=
  text.tails.any fun t => needle.toList.isPrefixOf t

/-- What reading the snapshots needs besides the standard library: the YAML loader (none where it
raises), the decoder that replaces what it cannot decode, the contract loader (none where it
raises). -/
structure Loaders where
  yaml : String → Option Json
  decodeReplace : ByteArray → String
  contract : Blob → Option Contract

section

variable (lib : Stdlib) (load : Loaders)

/-! ## Configuration -/

/-- `_safe_yaml` -/
def safeYaml : Option Blob → Json
  | none => .null
  | some (.binary _) => .str unparsable
  | some (.text text) => (load.yaml text).getD (.str unparsable)

/-- `value.get(key)` where the value is a dict, and none otherwise. -/
def dictGet (value : Option Json) (key : String) : Option Json :=
  match value with
  | some (.obj ms) => Dict.lookup ms key
  | _ => none

def stringOr (value : Option Json) (default : String) : String :=
  match value with
  | some (.str s) => if s = "" then default else s
  | _ => default

def configuredContractPath (read : BlobReader) : String :=
  let document := safeYaml load (read trwConfigPath)
  stringOr (dictGet (dictGet (dictGet (some document) "security") "intent") "contract_path")
    defaultContractPath

/-- `_intent_config_block` -/
def intentConfigBlock (read : BlobReader) : Json :=
  let document := safeYaml load (read trwConfigPath)
  if document = .str unparsable then .str unparsable
  else (dictGet (dictGet (some document) "security") "intent").getD .null

def configuredGlobSidecarPath (read : BlobReader) : String :=
  stringOr (dictGet (some (intentConfigBlock load read)) "glob_sidecar_path")
    defaultGlobSidecarPath

/-! ## Settings files -/

/-- `json.loads(raw.decode("utf-8", errors="strict"))`, or none where it raises one of the two
exceptions every caller catches. -/
def settingsDocument : Blob → Py (Option Json)
  | .binary _ => pure none
  | .text text =>
      match parseText plainObject text with
      | .error .loneSurrogate => do return some (← lib.jsonOther text.toUTF8)
      | .error _ => pure none
      | .ok document => pure (some document)

/-- `document.get("hooks")`, as the items of a dict. -/
def hookEvents (document : Json) : List (String × Json) :=
  match dictGet (some document) "hooks" with
  | some (.obj events) => events
  | _ => []

/-- The elements of an event's list. -/
def eventEntries : Json → List Json
  | .arr entries => entries
  | _ => []

/-- `{k: v for k, v in h.items() if k != "timeout"}` -/
def dropTimeout : Json → Json
  | .obj ms => .obj (ms.filter (·.1 ≠ "timeout"))
  | h => h

/-- `_without_timeouts` -/
def withoutTimeouts (entry : Json) : Json :=
  match entry, dictGet (some entry) "hooks" with
  | .obj ms, some (.arr hooks) => .obj (Dict.set ms "hooks" (.arr (hooks.map dropTimeout)))
  | _, _ => entry

/-- The text a registration is compared by. -/
def registrationText (entry : Json) : List Char := dumps lib spaced (withoutTimeouts entry)

/-- `f"{settings_path}:{event}:{hook_file}"` -/
def hookKey (path event file : String) : String := path ++ ":" ++ event ++ ":" ++ file

/-- The intent hooks a text names, each with the text. -/
def namedHooks (path event : String) (text : List Char) : List (String × List Char) :=
  (intentHookFiles.filter fun file => contains file text).map fun file =>
    (hookKey path event file, text)

/-- The registrations of one settings file, in document order. -/
def fileRegistrations (path : String) (document : Json) : List (String × List Char) :=
  (hookEvents document).flatMap fun (event, entries) =>
    (eventEntries entries).flatMap fun entry => namedHooks path event (registrationText lib entry)

/-- One settings file of a snapshot: absent, unparsable, or a document. -/
def readSettings (read : BlobReader) (path : String) : Py (Option (Option Json)) :=
  match read path with
  | none => pure none
  | some raw => do return some (← settingsDocument lib raw)

def settingsRegistrations (read : BlobReader) (path : String) : Py (List (String × List Char)) := do
  match ← readSettings lib read path with
  | none => return []
  | some none => return [(path ++ ":" ++ unparsable, unparsable.toList)]
  | some (some document) => return fileRegistrations lib path document

/-- `_settings_hook_signatures` -/
def settingsHookSignatures (read : BlobReader) : Py (Dict String (List Char)) := do
  return Dict.ofPairs (← settingsPaths.mapM (settingsRegistrations lib read)).flatten

/-! ## Timeouts -/

/-- `for hook in entry.get("hooks", [])` -/
def hooksOfEntry : Json → Py (List Json)
  | .obj ms =>
      match Dict.lookup ms "hooks" with
      | none => pure []
      | some (.arr hooks) => pure hooks
      | some (.obj members) => pure (members.map fun m => .str m.1)
      | some (.str s) => pure (s.toList.map fun c => .str (String.singleton c))
      | some _ => throw .typeError
  | _ => pure []

/-- `str(value)` -/
def pyStr : Json → String
  | .str s => s
  | value => lib.repr value

/-- `isinstance(value, int)`, as the number it is compared as. -/
def intValue : Option Json → Option Int
  | some (.int n) => some n
  | some (.bool b) => some (if b then 1 else 0)
  | _ => none

/-- `str(hook.get("command", ""))` -/
def hookCommand : Json → String
  | .obj ms => (Dict.lookup ms "command").elim "" (pyStr lib)
  | _ => ""

/-- The timeout a hook sets. -/
def hookTimeout (hook : Json) : Option Int := intValue (dictGet (some hook) "timeout")

/-- The timeouts one hook of an entry sets, under each intent hook its command names. -/
def commandTimeouts (path event : String) (hook : Json) : List (String × Int) :=
  match hookTimeout hook with
  | none => []
  | some timeout =>
      (intentHookFiles.filter fun file => contains file (hookCommand lib hook).toList).map fun file =>
        (hookKey path event file, timeout)

/-- The hooks of one settings file, each with its event, in document order. -/
def fileHooks (document : Json) : Py (List (String × Json)) := do
  let hooks ← (hookEvents document).mapM fun (event, entries) => do
    let hooks ← (eventEntries entries).mapM hooksOfEntry
    return hooks.flatten.map fun hook => (event, hook)
  return hooks.flatten

def settingsTimeouts (read : BlobReader) (path : String) : Py (List (String × Int)) := do
  match ← readSettings lib read path with
  | some (some document) =>
      return (← fileHooks document).flatMap fun (event, hook) => commandTimeouts lib path event hook
  | _ => return []

/-- `_intent_timeouts` -/
def intentTimeouts (read : BlobReader) : Py (Dict String Int) := do
  return Dict.ofPairs (← settingsPaths.mapM (settingsTimeouts lib read)).flatten

/-- `key.rsplit(":", 1)[-1]` -/
def keyFile (key : String) : String :=
  String.ofList (key.toList.reverse.takeWhile (· ≠ ':')).reverse

/-- One timeout of the candidate is lowered. -/
def isLowered (floor : Dict String Int) (before : Option Int) (key : String) (value : Int) : Bool :=
  let limit := (Dict.lookup floor (keyFile key)).getD (before.getD clientDefaultTimeout)
  decide (some value ≠ before ∧ value < limit)

/-- `_timeout_findings`, against the packaged floor. -/
def timeoutFindings (floor : Dict String Int) (readBase readCandidate : BlobReader) :
    Py (List String) := do
  let base ← intentTimeouts lib readBase
  let candidate ← intentTimeouts lib readCandidate
  let lowered := (candidate.insertionSort fun m n => m.1 ≤ n.1).filter fun m =>
    isLowered floor (Dict.lookup base m.1) m.1 m.2
  return lowered.map fun m =>
    let before := Dict.lookup base m.1
    let limit := (Dict.lookup floor (keyFile m.1)).getD (before.getD clientDefaultTimeout)
    "hook timeout lowered below " ++ toString limit ++ "s: " ++ m.1 ++ " (" ++
      (match before with
        | some b => if b = 0 then "default" else toString b
        | none => "default") ++ " -> " ++ toString m.2 ++ ")"

/-! ## Pre-commit hooks -/

/-- The hooks of the pre-commit configuration, over all repos. -/
def preCommitHooks (document : Json) : List Json :=
  match dictGet (some document) "repos" with
  | some (.arr repos) => repos.flatMap fun repo =>
      match dictGet (some repo) "hooks" with
      | some (.arr hooks) => hooks
      | _ => []
  | _ => []

/-- The id of an intent hook. -/
def intentHookId (hook : Json) : Option String :=
  match dictGet (some hook) "id" with
  | some (.str id) => if "intent-".toList.isPrefixOf id.toList then some id else none
  | _ => none

/-- `_pre_commit_intent_hooks` -/
def preCommitIntentHooks (read : BlobReader) : Dict String (List Char) :=
  let document := safeYaml load (read preCommitConfigPath)
  if document = .str unparsable then [(unparsable, unparsable.toList)]
  else Dict.ofPairs ((preCommitHooks document).filterMap fun hook =>
    (intentHookId hook).map fun id => (id, dumps lib spaced hook))

/-! ## Evidence and sidecar -/

/-- `raw.decode("utf-8", errors="replace")` -/
def decodeReplace : Blob → String
  | .text text => text
  | .binary bytes => load.decodeReplace bytes

/-- The line boundaries of `str.splitlines`. -/
def isLineBreak (c : Char) : Bool :=
  c ∈ ['\n', '\r', '\x0b', '\x0c', '\x1c', '\x1d', '\x1e', '\u0085', '\u2028', '\u2029']

/-- The rest of the first line, and the lines after it. -/
@[grind =] def splitLines : List Char → List Char × List (List Char)
  | [] => ([], [])
  | '\r' :: '\n' :: cs =>
      let (line, lines) := splitLines cs
      ([], if cs.isEmpty then lines else line :: lines)
  | c :: cs =>
      let (line, lines) := splitLines cs
      if isLineBreak c then ([], if cs.isEmpty then lines else line :: lines)
      else (c :: line, lines)

/-- `text.splitlines()` -/
def splitlines (text : String) : List String :=
  if text = "" then []
  else
    let (line, lines) := splitLines text.toList
    (line :: lines).map String.ofList

/-- `text.strip()` -/
def stripText (text : String) : String :=
  String.ofList ((text.toList.dropWhile Regex.isSpace).rdropWhile Regex.isSpace)

/-- `_evidence_visibility` -/
def evidenceVisibility (read : BlobReader) : List String :=
  match read evidenceVisibilityPath with
  | none => []
  | some raw =>
      let lines := (splitlines (decodeReplace load raw)).map stripText
      evidenceVisibilityRules.filter (· ∈ lines)

/-- `sorted(lines)` -/
def sortedLines (lines : List String) : List String := lines.insertionSort (· ≤ ·)

/-- `[!-~]+` -/
def isPathToken (text : List Char) : Bool :=
  !text.isEmpty && text.all fun c => decide (33 ≤ c.toNat ∧ c.toNat ≤ 126)

/-- `[0-9a-f]{64}` -/
def isDigest (text : List Char) : Bool :=
  text.length == 64 && text.all fun c => c.isDigit || decide ('a' ≤ c ∧ c ≤ 'f')

/-- What follows a lead that the text starts with. -/
def afterLead (lead : String) (text : List Char) : Option (List Char) :=
  if lead.toList.isPrefixOf text then some (text.drop lead.toList.length) else none

/-- The artifact a freshness line records. -/
def recordedArtifact (line : List Char) : Option (List Char) :=
  match (afterLead "g0 " line).filter isPathToken with
  | some path => some path
  | none => do
      let rest ← afterLead "g1 " line
      let path ← afterLead " " (rest.drop 64)
      if isDigest (rest.take 64) && isPathToken path then some path else none

def isDigestLine (line : List Char) : Bool := ((afterLead "sha256:" line).filter isDigest).isSome

/-- The lines of a sidecar that are neither comments nor patterns. -/
def recordLines (lines : List String) : List (List Char) :=
  (lines.map (·.toList)).filter fun line =>
    !(line.isEmpty || (afterLead "#" line).isSome || (afterLead "p " line).isSome)

/-- `_sidecar_matches_contract` -/
def sidecarMatchesContract (read : BlobReader) (sidecar : String) : Bool :=
  match read sidecar with
  | none => true
  | some raw =>
      let contractPath := configuredContractPath load read
      let loaded := (read contractPath).map load.contract
      match if loaded = some none then none else contractPatterns loaded.join with
      | none => false
      | some expected =>
          let lines := splitlines (decodeReplace load raw)
          let actual := (lines.filterMap fun line => afterLead "p " line.toList).map String.ofList
          let records := recordLines lines
          let recorded := (records.filterMap recordedArtifact).map String.ofList
          sortedLines actual == sortedLines expected &&
            records.all (fun line => (recordedArtifact line).isSome || isDigestLine line) &&
            sortedLines recorded == sortedLines (guardedArtifacts contractPath) &&
            (records.filter isDigestLine).length == 1

/-! ## The comparison -/

/-- `_missing_or_altered` -/
def missingOrAltered (base candidate : Dict String (List Char)) (label : String) : List String :=
  ((base.insertionSort fun m n => m.1 ≤ n.1).filter fun m =>
    Dict.lookup candidate m.1 ≠ some m.2).map fun m =>
      label ++ " registration removed or altered: " ++ m.1

def locatorFindings (baseLocator candidateLocator : String) : List String :=
  if baseLocator = candidateLocator then []
  else ["contract locator changed: " ++ baseLocator ++ " -> " ++ candidateLocator]

/-- The finding on one tracked file. -/
def trackedFinding (readBase readCandidate : BlobReader) (removedOrRenamed : List String)
    (tracked : String) : List String :=
  if tracked ∈ removedOrRenamed then ["protected file renamed, moved, or deleted: " ++ tracked]
  else if (readBase tracked).isSome && (readCandidate tracked).isNone then
    ["protected file removed: " ++ tracked]
  else []

def evidenceFindings (readBase readCandidate : BlobReader) : List String :=
  (evidencePaths.filter fun evidence => readBase evidence ≠ readCandidate evidence).map
    ("override-evidence file modified: " ++ ·)

def visibilityFindings (readBase readCandidate : BlobReader) : List String :=
  (sortedLines ((evidenceVisibility load readBase).filter
    (· ∉ evidenceVisibility load readCandidate))).map fun rule =>
      "override-evidence visibility rule removed from " ++ evidenceVisibilityPath ++ ": " ++ rule

def intentConfigFindings (readBase readCandidate : BlobReader) : List String :=
  if (intentConfigBlock load readBase).eqv (intentConfigBlock load readCandidate) then []
  else ["security.intent.* control-plane config modified"]

def sidecarFindings (readBase readCandidate : BlobReader) : List String :=
  let sidecar := configuredGlobSidecarPath load readCandidate
  if readBase sidecar ≠ readCandidate sidecar ∧ !sidecarMatchesContract load readCandidate sidecar
  then ["fast-path sidecar does not match its contract: " ++ sidecar]
  else []

/-- Every finding between two snapshots. -/
def controlPlaneFindings (floor : Dict String Int) (readBase readCandidate : BlobReader)
    (removedOrRenamed : List String) : Py (List String) := do
  let baseLocator := configuredContractPath load readBase
  let candidateLocator := configuredContractPath load readCandidate
  let tracked := sortedLines
    [baseLocator, candidateLocator, enrollmentPath, enrollmentEvidencePath].dedup
  let timeouts ← timeoutFindings lib floor readBase readCandidate
  let baseHooks ← settingsHookSignatures lib readBase
  let candidateHooks ← settingsHookSignatures lib readCandidate
  return locatorFindings baseLocator candidateLocator ++
    tracked.flatMap (trackedFinding readBase readCandidate removedOrRenamed) ++
    evidenceFindings readBase readCandidate ++
    visibilityFindings load readBase readCandidate ++
    intentConfigFindings load readBase readCandidate ++
    sidecarFindings load readBase readCandidate ++
    timeouts ++
    missingOrAltered baseHooks candidateHooks "hook" ++
    missingOrAltered (preCommitIntentHooks lib load readBase)
      (preCommitIntentHooks lib load readCandidate) "pre-commit hook"

end

end TrwMcp.Intent
