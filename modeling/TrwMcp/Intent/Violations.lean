import TrwMcp.Intent.Ledger
import TrwMcp.Lib.Effect

/-!
# The post-edit check and the open violations

A failing falsifier is recorded twice: as an entry of the override ledger, and in a marker file
that anyone may rewrite. The check after an edit, the override of the deliver gate and the gate
itself read both.
-/

namespace TrwMcp.Intent

open Handoff Lib

def openViolationsPath : String := ".trw/runtime/intent-open-violations.json"

/-! ## The two stores -/

abbrev Item := Dict String String

/-- The marker, as `_load` finds it. -/
inductive Marker where
  | missing
  | corrupt
  | items (entries : List Item)
  deriving DecidableEq

/-- `_load`; `none` stands for `_CORRUPT`. -/
def Marker.load : Marker → Option (List Item)
  | .missing => some []
  | .corrupt => none
  | .items entries => some entries

/-- What happens to one write: it is stored, fails before it changes anything, stops inside its
bytes, stops after the ledger line with the checkpoint emptied, or is stored and reported as
failed. -/
inductive Fate where
  | stored
  | failed
  | torn (length : Nat)
  | emptied
  | late
  deriving DecidableEq

/-- What one write meets: the time, a new ledger id, its fate and the name of the error. -/
structure Tick where
  ts : String
  fresh : String
  fate : Fate
  osError : String

/-- The stores; and, for the statements, the entries the ledger took and the falsifiers run. -/
structure World where
  files : Files
  marker : Marker
  time : Nat := 0
  appended : List RecordCall := []
  checked : List (MustNotHappenClaim × FalsifierRef) := []

inductive Raised where
  | ledgerError
  | valueError
  | osError (name : String)
  deriving DecidableEq

def Raised.typeName : Raised → String
  | .ledgerError => "LedgerError"
  | .valueError => "ValueError"
  | .osError name => name

/-- `except (LedgerError, OSError)` -/
def Raised.isCaught : Raised → Bool
  | .valueError => false
  | _ => true

abbrev Act (α : Type) := Eff Raised World α

section

variable (lib : Stdlib) (ticks : Nat → Tick)

/-- The exception of an append that `_append` refuses. -/
def refusal (reason : String) : Raised :=
  if reason = "Exceeds the limit for integer string conversion" then .valueError else .ledgerError

/-- The world after the bytes of an append. -/
def World.append (w : World) (call : RecordCall) (written : Written) : Fate → World
  | .stored | .late =>
      { w with
        files := ⟨w.files.ledger.extend written.line, .text written.checkpoint⟩
        appended := w.appended ++ [call] }
  | .failed => w
  | .torn length =>
      { w with files := ⟨w.files.ledger.extend (written.line.take length), w.files.checkpoint⟩ }
  | .emptied => { w with files := ⟨w.files.ledger.extend written.line, .text []⟩ }

/-- `record_override`, `record_violation`, `record_resolution`, with what may go wrong. -/
def appendEntry (call : RecordCall) : Act Unit := fun w =>
  let tick := ticks w.time
  let w := { w with time := w.time + 1 }
  if stripText call.reason = "" then (.error .ledgerError, w)
  else if tick.fate = .failed then (.error (.osError tick.osError), w)
  else match recordCall lib w.files call tick.ts tick.fresh with
    | .error reason =>
        (.error (refusal reason), { w with files := ⟨w.files.ledger.opened, w.files.checkpoint⟩ })
    | .ok written =>
        (if tick.fate = .stored then .ok () else .error (.osError tick.osError),
          w.append call written tick.fate)

/-- `_mutate`; the entry of a new violation carries the time. -/
def mutate (change : String → List Item → List Item) : Act Bool := fun w =>
  let tick := ticks w.time
  let w := { w with time := w.time + 1 }
  let current := if w.marker = .missing then none else w.marker.load
  let stored := { w with marker := .items (change tick.ts (current.getD [])) }
  match tick.fate with
  | .stored => (.ok current.isNone, stored)
  | .late => (.error (.osError tick.osError), stored)
  | .failed => (.error (.osError tick.osError), w)
  | .torn _ | .emptied => (.error (.osError tick.osError), { w with marker := .corrupt })

/-! ## Keys -/

abbrev Key := String × String

def itemKey (item : Item) : Key :=
  ((Dict.lookup item "claim_id").getD "", (Dict.lookup item "file_path").getD "")

/-- The items of another key: an item without one of its members is kept. -/
def dropKey (key : Key) (entries : List Item) : List Item :=
  entries.filter fun item =>
    (Dict.lookup item "claim_id", Dict.lookup item "file_path") ≠ (some key.1, some key.2)

/-- The kind and the key of a ledger entry. -/
def entryKey (entry : Entry) : String × Key :=
  (strField lib entry "kind", strField lib entry "claim_id", strField lib entry "file_path")

/-- One entry of the loop of `open_violation_keys`. -/
def openStep (opened : List Key) (entry : String × Key) : List Key :=
  if entry.1 = "violation" then opened.insert entry.2
  else if entry.1 = "resolution" ∨ entry.1 = "override" then opened.filter (· ≠ entry.2)
  else opened

def openViolationKeys (ledger : FileText) : Except String (List Key) :=
  (readEntries ledger).map fun entries => (entries.map (entryKey lib)).foldl openStep []

/-- `sorted` of a set of pairs. -/
def sortKeys (keys : List Key) : List Key :=
  keys.dedup.mergeSort fun a b => decide (a.1 < b.1) || (a.1 == b.1 && decide (a.2 ≤ b.2))

/-- `ledger_tamper_reason`; `inHistory` is what `path_in_history` answers for the ledger. -/
def ledgerTamperReason (files : Files) (inHistory : Bool) : Option String :=
  if !files.ledger.exists then
    if files.checkpoint.exists || inHistory then
      some (ledgerPath ++ " is MISSING although this project has recorded overrides before")
    else none
  else
    let state := verifyOverrideLedger lib files
    if state.valid then none else some (ledgerPath ++ " does not verify: " ++ state.reason)

/-! ## `violations.py` -/

def recordOpenViolation (key : Key) (claimText falsifier detail : String) : Act Unit := do
  let _ ← mutate ticks fun openedAt entries => dropKey key entries ++
    [[("claim_id", key.1), ("file_path", key.2), ("claim_text", claimText),
      ("falsifier", falsifier), ("detail", detail), ("opened_at", openedAt)]]

def clearViolation (key : Key) (sessionId reason : String) : Act Bool := do
  let w ← Eff.read
  match openViolationKeys lib w.files.ledger with
  | .error _ => Eff.raise .ledgerError
  | .ok keys =>
      let entries := w.marker.load.getD []
      let _ ← mutate ticks fun _ entries => dropKey key entries
      if key ∈ keys ∨ (dropKey key entries).length ≠ entries.length then
        Eff.handle Raised.isCaught
          (do appendEntry lib ticks (.resolution key.1 key.2 sessionId reason)
              pure true)
          fun _ => pure true
      else pure false

/-- The loop of `record_gate_override`. -/
@[grind =] def overrideKeys (sessionId reason : String) : List Key → Act Bool
  | [] => pure true
  | key :: keys => do
      let recorded ← Eff.handle Raised.isCaught
        (do appendEntry lib ticks
              (.override key.1 key.2 "FR07" sessionId (stripText reason) "blocked")
            pure true)
        fun _ => pure false
      if recorded then do
        let _ ← mutate ticks fun _ entries => dropKey key entries
        overrideKeys sessionId reason keys
      else pure false

def recordGateOverride (inHistory : Bool) (sessionId reason : String) : Act Bool := do
  let w ← Eff.read
  if stripText reason = "" then pure false
  else match w.marker.load with
    | none => pure false
    | some items =>
        if (ledgerTamperReason lib w.files inHistory).isSome then pure false
        else match openViolationKeys lib w.files.ledger with
          | .error _ => Eff.raise .ledgerError
          | .ok keys =>
              overrideKeys lib ticks sessionId reason (sortKeys (keys ++ items.map itemKey))

def corruptMarkerMessage : String :=
  "BLOCKED: the intent-contract open-violation marker is CORRUPT and cannot be read.\n" ++
  "  It is enforcement state, so an unreadable marker fails closed — a violation\n" ++
  "  may still be outstanding.\n\n" ++
  "ACTION: inspect " ++ openViolationsPath ++ ", re-run the claim's falsifier, and let the\n" ++
  "  post-edit check rewrite the marker."

def tamperMessage (tampered : String) : String :=
  "BLOCKED: the intent-contract override LEDGER cannot be trusted — " ++ tampered ++ ".\n" ++
  "  It is the durable authority behind the runtime marker, so a missing or\n" ++
  "  unreadable ledger fails closed exactly as a corrupt marker does: a violation\n" ++
  "  may still be outstanding, and deleting the evidence is not a resolution.\n\n" ++
  "ACTION: restore " ++ ledgerPath ++ " and its checkpoint from git, or have an operator\n" ++
  "  re-establish the chain as a signed, reviewed change."

def ledgerItem (key : Key) : Item :=
  [("claim_id", key.1), ("file_path", key.2),
    ("claim_text", "(open per the FR03 ledger — the runtime marker no longer lists it)"),
    ("falsifier", "<see ledger>")]

def itemLine (item : Item) : String :=
  "  - " ++ (Dict.lookup item "claim_id").getD "?" ++ " on " ++
    (Dict.lookup item "file_path").getD "?" ++ ": " ++ (Dict.lookup item "claim_text").getD "" ++
    " (falsifier: " ++ (Dict.lookup item "falsifier").getD "?" ++ ")"

def openMessage (entries : List Item) : String :=
  "BLOCKED: an intent-contract must_not_happen violation is still open (" ++
  toString entries.length ++ " outstanding).\n" ++
  "\n".intercalate (entries.map itemLine) ++
  "\n\nACTION: fix the violation so the claim's falsifier passes (the post-edit check " ++
  "clears it on re-pass), or have an operator mint a break-glass token — every " ++
  "override is recorded in the FR03 ledger."

def intentViolationGateBlock (inHistory : Bool) (w : World) : Except Raised (Option String) :=
  match w.marker.load with
  | none => .ok (some corruptMarkerMessage)
  | some current =>
      match ledgerTamperReason lib w.files inHistory with
      | some tampered => .ok (some (tamperMessage tampered))
      | none =>
          match openViolationKeys lib w.files.ledger with
          | .error _ => .error .ledgerError
          | .ok keys =>
              let known := current.map itemKey
              let entries :=
                current ++ (sortKeys (keys.filter (· ∉ known))).map ledgerItem
              if entries.isEmpty then .ok none else .ok (some (openMessage entries))

/-! ## `post_edit_check.py` -/

inductive FalsifierOutcome where
  | pass | fail | timeout | error
  deriving DecidableEq, Repr

def FalsifierOutcome.value : FalsifierOutcome → String
  | pass => "pass"
  | fail => "fail"
  | timeout => "timeout"
  | error => "error"

structure FalsifierResult where
  outcome : FalsifierOutcome
  detail : String := ""

def FalsifierResult.passed (result : FalsifierResult) : Bool := result.outcome == .pass

def falsifierLabel : FalsifierRef → String
  | .pytest nodeId => "pytest:" ++ nodeId
  | .argv argv => "argv:" ++ " ".intercalate argv

/-- What `read_hook_input` resolves, and what the check finds around it: whether the target may be
a second name of a file, which claims anchor that file, why the target cannot be read, what each
falsifier answers and which tokens are there. -/
structure HookInput where
  contract : Contract
  relPath : String
  escaped : Bool := false
  mayBeAliased : Bool := false
  inodeMatches : MustNotHappenClaim → Bool := fun _ => false
  unreadable : Option String := none
  sessionId : String := ""
  runFalsifier : MustNotHappenClaim → FalsifierRef → FalsifierResult
  token : String → String → Option String := fun _ _ => none

structure HookDecision where
  code : Nat
  message : String := ""
  deriving DecidableEq

def allow : Nat := 0

def block : Nat := 2

def enforceableClaims (input : HookInput) : List MustNotHappenClaim :=
  let eligible := eligibleClaims input.contract
  let matched := claimsMatchingPath eligible input.relPath
  if !matched.isEmpty || !input.mayBeAliased then matched
  else eligible.filter input.inodeMatches

/-- `_break_glass` -/
def breakGlass (input : HookInput) (claim : MustNotHappenClaim) (reason : String) :
    Act (Option HookDecision) :=
  match input.token claim.claimId input.relPath with
  | none => pure none
  | some token => do
      let refused ← Eff.handle Raised.isCaught
        (do appendEntry lib ticks (.override claim.claimId input.relPath "FR07" input.sessionId
              ("break-glass token " ++ token ++ ": " ++ reason) "break_glass")
            pure none)
        fun e => pure (some e)
      match refused with
      | some e => pure (some ⟨block,
          "break-glass refused — override could not be ledgered (" ++ e.typeName ++ ")"⟩)
      | none => do
          let _ ← clearViolation lib ticks (claim.claimId, input.relPath) input.sessionId
            ("break-glass token " ++ token)
          pure (some { code := allow })

def violatedMessage (claim : MustNotHappenClaim) (relPath label detail : String) : String :=
  "must_not_happen violated — " ++ claim.claimId ++ ": " ++ claim.text ++ "\n  file: " ++ relPath ++
  "\n  falsifier: " ++ label ++ "\n  result: " ++ detail

def unevaluableMessage (claim : MustNotHappenClaim) (relPath label detail : String) : String :=
  "INFRA_ERROR — the falsifier for " ++ claim.claimId ++ " could not be evaluated.\n" ++
  "  file: " ++ relPath ++ "\n  falsifier: " ++ label ++ "\n  result: " ++ detail ++ "\n" ++
  "  This is NOT evidence the claim was violated: the check did not run.\n" ++
  "  Fix the check (or its dependencies), then retry."

/-- `_violation` -/
def violation (input : HookInput) (claim : MustNotHappenClaim) (detail : String)
    (evaluable : Bool) : Act HookDecision := do
  match ← breakGlass lib ticks input claim detail with
  | some decision => pure decision
  | none =>
      let label := (claim.falsifiers.head?.map falsifierLabel).getD "<none>"
      Eff.handle Raised.isCaught
        (appendEntry lib ticks (.violation claim.claimId input.relPath input.sessionId detail))
        fun _ => pure ()
      recordOpenViolation ticks (claim.claimId, input.relPath) claim.text label detail
      if evaluable then pure ⟨block, violatedMessage claim input.relPath label detail⟩
      else pure ⟨block, unevaluableMessage claim input.relPath label detail⟩

/-- The falsifiers of one claim; `none` when all pass. -/
@[grind =] def checkFalsifiers (input : HookInput) (claim : MustNotHappenClaim) :
    List FalsifierRef → Act (Option HookDecision)
  | [] => pure none
  | ref :: refs => do
      Eff.update fun w => { w with checked := w.checked ++ [(claim, ref)] }
      let result := input.runFalsifier claim ref
      if result.passed then checkFalsifiers input claim refs
      else do
        let decision ← violation lib ticks input claim
          (result.outcome.value ++ ": " ++ result.detail) (result.outcome == .fail)
        pure (some decision)

/-- The loop of `run`. -/
@[grind =] def checkClaims (input : HookInput) : List MustNotHappenClaim → Act HookDecision
  | [] => pure { code := allow }
  | claim :: claims => do
      match ← checkFalsifiers lib ticks input claim claim.falsifiers with
      | some decision => pure decision
      | none => do
          let _ ← clearViolation lib ticks (claim.claimId, input.relPath) input.sessionId
            "falsifier re-passed"
          checkClaims input claims

/-- `run`, from the resolved input. -/
def postEditCheck (input : HookInput) : Act HookDecision :=
  let matching := enforceableClaims input
  if matching.isEmpty then pure { code := allow }
  else if input.escaped then
    pure ⟨block, "anchored target escapes the repository root: " ++ input.relPath⟩
  else match input.unreadable with
    | some exception => pure ⟨block,
        "post-edit target could not be read no-follow (" ++ exception ++ ")"⟩
    | none => checkClaims lib ticks input matching

/-! ## Runs -/

/-- A post-edit check, an override at the deliver gate, or a change of the marker by anyone. -/
inductive Operation where
  | postEdit (input : HookInput)
  | gateOverride (inHistory : Bool) (sessionId reason : String)
  | rewrite (marker : Marker)

def perform (w : World) : Operation → World
  | .postEdit input => (postEditCheck lib ticks input w).2
  | .gateOverride inHistory sessionId reason =>
      (recordGateOverride lib ticks inHistory sessionId reason w).2
  | .rewrite marker => { w with marker }

def OperationStep (w : World) (operation : Operation) (w' : World) : Prop :=
  perform lib ticks w operation = w'

end

/-- Before any operation: no file. -/
def World.empty : World := { files := ⟨.missing, .missing⟩, marker := .missing }

end TrwMcp.Intent
