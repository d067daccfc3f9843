import TrwMcp.Intent.DumpsRead
import TrwMcp.Intent.ControlPlane
import TrwMcp.Lib.Run

/-!
# The override ledger

One JSON entry a line, chained by hash, and a checkpoint beside it that holds the number of entries
and the last hash. An append verifies both files, writes its line, then rewrites the checkpoint.
The hash is over text; the model hashes the UTF-8 bytes of the text.
-/

namespace TrwMcp.Intent

open Handoff Lib

/-- A file as `read_text` finds it; `unreadable` carries the name of the exception. -/
inductive FileText where
  | missing
  | unreadable (exception : String)
  | text (cs : List Char)
  deriving DecidableEq

def FileText.exists : FileText → Bool
  | .missing => false
  | _ => true

/-- The members of a parsed object. -/
abbrev Entry := List (String × Json)

section

variable (lib : Stdlib)

def genesisPrev : String := String.ofList (List.replicate 64 '0')

/-- `str(entry.get(key, ""))` -/
def strField (entry : Entry) (key : String) : String :=
  ((Dict.lookup entry key).map (pyStr lib)).getD ""

/-- `_canonical` -/
def canonicalText (sansHash : Entry) : List Char := dumps lib compact (.obj sansHash)

/-- `_entry_hash` -/
def entryHash (prevHash : String) (sansHash : Entry) : String :=
  lib.sha256 (String.ofList (prevHash.toList ++ canonicalText lib sansHash)).toUTF8

/-- The entry without its own hash. -/
def sansHash (entry : Entry) : Entry := entry.filter fun m => m.1 ≠ "entry_hash"

/-- One line of `_read_entries`: blank, or an object. -/
def readLine (index : Nat) (line : List Char) : Except String (Option Entry) :=
  let stripped := stripText (String.ofList line)
  if stripped = "" then .ok none
  else match parseText plainObject stripped with
    | .error _ => .error ("ledger line " ++ toString index ++ " is not valid JSON")
    | .ok (.obj entry) => .ok (some entry)
    | .ok _ => .error ("ledger line " ++ toString index ++ " is not an object")

/-- The loop of `_read_entries`. -/
@[grind =] def readLines : List Entry → List String → Except String (List Entry)
  | entries, [] => .ok entries
  | entries, line :: lines =>
      match readLine entries.length line.toList with
      | .error reason => .error reason
      | .ok none => readLines entries lines
      | .ok (some entry) => readLines (entries ++ [entry]) lines

def readEntries : FileText → Except String (List Entry)
  | .missing => .ok []
  | .unreadable exception => .error ("ledger could not be read (" ++ exception ++ ")")
  | .text cs => readLines [] (splitlines (String.ofList cs))

/-- What `_read_checkpoint` stands in for a checkpoint it cannot use. -/
def unusable (head : String) : Entry :=
  [("ledger_id", .str ""), ("entry_count", .int (-1)), ("head_hash", .str head)]

def readCheckpoint : FileText → Option Entry
  | .missing => none
  | .unreadable _ => some (unusable "<unreadable>")
  | .text cs =>
      match parseText plainObject (String.ofList cs) with
      | .error _ => some (unusable "<unreadable>")
      | .ok (.obj checkpoint) => some checkpoint
      | .ok _ => some (unusable "<invalid>")

/-- `_walk_chain`: the head, and the index of the first broken entry. -/
@[grind =] def walkChain : String → Nat → List Entry → String × Option Nat
  | prev, _, [] => (prev, none)
  | prev, index, entry :: entries =>
      let recorded := strField lib entry "entry_hash"
      if strField lib entry "prev_hash" ≠ prev ∨ entryHash lib prev (sansHash entry) ≠ recorded then
        (prev, some index)
      else walkChain recorded (index + 1) entries

/-- `entry_count`, as `verify_override_ledger` compares it: an `int`, which a `bool` is. -/
def recordedCount (checkpoint : Entry) : Int :=
  match Dict.lookup checkpoint "entry_count" with
  | some (.int n) => n
  | some (.bool b) => if b then 1 else 0
  | _ => -1

structure LedgerVerification where
  valid : Bool
  entryCount : Nat
  headHash : String
  brokenIndex : Option Nat := none
  reason : String := ""

/-- The two files. -/
structure Files where
  ledger : FileText
  checkpoint : FileText
  deriving DecidableEq

def verifyOverrideLedger (files : Files) : LedgerVerification :=
  match readEntries files.ledger with
  | .error reason => { valid := false, entryCount := 0, headHash := "", reason }
  | .ok entries =>
      match walkChain lib genesisPrev 0 entries with
      | (head, some broken) =>
          { valid := false, entryCount := entries.length, headHash := head,
            brokenIndex := some broken, reason := "chain broken at entry " ++ toString broken }
      | (head, none) =>
          match readCheckpoint files.checkpoint with
          | none =>
              if entries.isEmpty then { valid := true, entryCount := 0, headHash := genesisPrev }
              else
                { valid := false, entryCount := entries.length, headHash := head,
                  reason := "checkpoint missing for a non-empty ledger" }
          | some checkpoint =>
              if recordedCount checkpoint ≠ entries.length ∨
                  strField lib checkpoint "head_hash" ≠ head then
                { valid := false, entryCount := entries.length, headHash := head,
                  reason := "checkpoint mismatch (truncation or wholesale re-genesis)" }
              else { valid := true, entryCount := entries.length, headHash := head }

/-! ## Appending -/

/-- What a call records besides the members `_append` sets. -/
structure EntryFields where
  ts : String
  kind : String
  controlPoint : String
  claimId : String
  filePath : String
  sessionId : String
  reason : String
  blockClass : String

def EntryFields.members (fields : EntryFields) : Entry :=
  [("ts", .str fields.ts), ("kind", .str fields.kind), ("control_point", .str fields.controlPoint),
    ("claim_id", .str fields.claimId), ("file_path", .str fields.filePath),
    ("session_id", .str fields.sessionId), ("reason", .str fields.reason),
    ("block_class", .str fields.blockClass)]

/-- The entry `_append` chains, before its hash. -/
def EntryFields.entry (fields : EntryFields) (seq : Nat) (prevHash : String) : Entry :=
  fields.members ++ [("seq", .int seq), ("prev_hash", .str prevHash)]

/-- The entry with its hash. -/
def EntryFields.record (fields : EntryFields) (seq : Nat) (prevHash : String) : Entry :=
  fields.entry seq prevHash ++
    [("entry_hash", .str (entryHash lib prevHash (fields.entry seq prevHash)))]

/-- The line written for an entry. -/
def ledgerLine (record : Entry) : List Char := dumps lib compact (.obj record) ++ ['\n']

/-- `atomic_write_json` of the checkpoint: sorted, indented by two. -/
def checkpointText (ledgerId : String) (count : Nat) (head : String) : List Char :=
  flatText lib ⟨[',', '\n', ' ', ' '], [':', ' ']⟩ ['\n', ' ', ' '] ['\n'] ['\n']
    [("entry_count", .int count), ("head_hash", .str head), ("ledger_id", .str ledgerId)]

/-- `locked(path, append=True)` creates the ledger. -/
def FileText.opened : FileText → FileText
  | .missing => .text []
  | file => file

/-- What an append writes: the line, and the checkpoint. -/
structure Written where
  line : List Char
  checkpoint : List Char

/-- The `ledger_id` of a checkpoint, or a new one. -/
def ledgerId (checkpoint : Option Entry) (fresh : String) : String :=
  match checkpoint with
  | none => fresh
  | some checkpoint =>
      let recorded := if checkpoint.isEmpty then "" else strField lib checkpoint "ledger_id"
      if recorded = "" then fresh else recorded

/-- `_append`, up to its writes; `fresh` is `uuid.uuid4().hex`. An integer too long for `str` is
not written. -/
def append (files : Files) (fields : EntryFields) (fresh : String) : Except String Written :=
  let state := verifyOverrideLedger lib ⟨files.ledger.opened, files.checkpoint⟩
  if !state.valid then .error ("refusing to append to an invalid ledger: " ++ state.reason)
  else if maxIntDigits < (Nat.toDigits 10 (state.entryCount + 1)).length then
    .error "Exceeds the limit for integer string conversion"
  else
    let record := fields.record lib state.entryCount state.headHash
    .ok
      { line := ledgerLine lib record
        checkpoint := checkpointText lib
          (ledgerId lib (readCheckpoint files.checkpoint) fresh) (state.entryCount + 1)
          (strField lib record "entry_hash") }

/-- The calls that append. -/
inductive RecordCall where
  | override (claimId filePath controlPoint sessionId reason blockClass : String)
  | violation (claimId filePath sessionId reason : String)
  | resolution (claimId filePath sessionId reason : String)

def RecordCall.reason : RecordCall → String
  | .override _ _ _ _ reason _ => reason
  | .violation _ _ _ reason => reason
  | .resolution _ _ _ reason => reason

def RecordCall.noun : RecordCall → String
  | .override .. => "override"
  | .violation .. => "violation"
  | .resolution .. => "resolution"

/-- The members of the entry a call records at time `ts`. -/
def RecordCall.fields (ts : String) : RecordCall → EntryFields
  | .override claimId filePath controlPoint sessionId reason blockClass =>
      { ts, kind := "override", controlPoint, claimId, filePath, sessionId,
        reason := stripText reason, blockClass }
  | .violation claimId filePath sessionId reason =>
      { ts, kind := "violation", controlPoint := "FR07", claimId, filePath, sessionId,
        reason := stripText reason, blockClass := "violation" }
  | .resolution claimId filePath sessionId reason =>
      { ts, kind := "resolution", controlPoint := "FR07", claimId, filePath, sessionId,
        reason := stripText reason, blockClass := "resolved" }

/-- `record_override`, `record_violation`, `record_resolution`. -/
def recordCall (files : Files) (call : RecordCall) (ts fresh : String) : Except String Written :=
  if stripText call.reason = "" then .error (call.noun ++ " reason must be non-empty")
  else append lib files (call.fields ts) fresh

end

def FileText.chars : FileText → List Char
  | .text cs => cs
  | _ => []

/-- The ledger with more text at its end. -/
def FileText.extend (file : FileText) (more : List Char) : FileText := .text (file.chars ++ more)

/-- What may happen to one call: it completes, it is refused, or it stops after some of the line is
written and before the checkpoint is. -/
inductive Recorded where
  | done (call : RecordCall) (ts fresh : String)
  | refused (call : RecordCall) (ts fresh : String)
  | stopped (call : RecordCall) (ts fresh : String)

inductive RecordStep (lib : Stdlib) : Files → Recorded → Files → Prop
  | done {files : Files} {call : RecordCall} {ts fresh : String} {written : Written}
      (h : recordCall lib files call ts fresh = .ok written) :
      RecordStep lib files (.done call ts fresh)
        ⟨files.ledger.extend written.line, .text written.checkpoint⟩
  | refused {files : Files} {call : RecordCall} {ts fresh reason : String}
      (h : recordCall lib files call ts fresh = .error reason) (ledger : FileText)
      (hledger : ledger = files.ledger ∨ ledger = files.ledger.opened) :
      RecordStep lib files (.refused call ts fresh) ⟨ledger, files.checkpoint⟩
  | stopped {files : Files} {call : RecordCall} {ts fresh : String} {written : Written}
      {part : List Char} (h : recordCall lib files call ts fresh = .ok written)
      (hne : part ≠ []) (hpart : part <+: written.line) :
      RecordStep lib files (.stopped call ts fresh)
        ⟨files.ledger.extend part, files.checkpoint⟩

end TrwMcp.Intent
