import TrwMcp.Intent.LedgerRuns
import TrwMcp.Lib.Effect

/-!
# The scheduling ledger

One action a line, each with the digest of the one before it, and an anchor beside the file with the
number of actions and the last digest. `load_ledger` checks the chain, `verify_ledger_head_anchor`
the end of it.

A chain of a known length and head is determined by them: two chains that agree there agree on the
last action, so on the digest it carries, and so on down. What a file can do besides is not to
decode, which `load_ledger` does not catch.
-/

namespace TrwMcp.Scheduling

open Handoff Intent Lib

/-! ## Dates -/

def isLeap (year : Nat) : Bool := year % 4 = 0 && (year % 100 ≠ 0 || year % 400 = 0)

def daysInMonth (year month : Nat) : Nat :=
  match month with
  | 4 | 6 | 9 | 11 => 30
  | 2 => if isLeap year then 29 else 28
  | _ => 31

/-- `date(year, month, day).toordinal()` -/
def ordinal (year month day : Nat) : Option Nat :=
  if 1 ≤ year ∧ year ≤ 9999 ∧ 1 ≤ month ∧ month ≤ 12 ∧ 1 ≤ day ∧ day ≤ daysInMonth year month then
    some ((year - 1) * 365 + (year - 1) / 4 - (year - 1) / 100 + (year - 1) / 400 +
      ((List.range (month - 1)).map fun m => daysInMonth year (m + 1)).sum + day)
  else none

/-- The last day of the year 9999. -/
def maxOrdinal : Nat := 3652059

/-- The day an ISO year, week and weekday name. -/
def weekOrdinal (year week day : Nat) : Option Nat := do
  let first ← ordinal year 1 1
  let long := first % 7 = 4 ∨ (first % 7 = 3 ∧ isLeap year = true)
  let monday := first - (first + 6) % 7 + (if 3 < (first + 6) % 7 then 7 else 0)
  let result := monday + (week - 1) * 7 + (day - 1)
  if 1 ≤ week ∧ (week ≤ 52 ∨ (week = 53 ∧ long)) ∧ 1 ≤ day ∧ day ≤ 7 ∧ result ≤ maxOrdinal then
    some result
  else none

/-- `int(text)` of a fixed number of ASCII digits. -/
def readDigits (cs : List Char) : Option Nat :=
  if cs.all Char.isDigit then some (cs.foldl (fun n c => 10 * n + (c.toNat - 48)) 0) else none

/-- `date.fromisoformat(text).toordinal()`, where the text names a date. -/
def fromIsoformat (text : String) : Option Nat :=
  match text.toList with
  | [a, b, c, d, 'W', w, x] => do
      weekOrdinal (← readDigits [a, b, c, d]) (← readDigits [w, x]) 1
  | [a, b, c, d, '-', 'W', w, x] => do
      weekOrdinal (← readDigits [a, b, c, d]) (← readDigits [w, x]) 1
  | [a, b, c, d, 'W', w, x, e] => do
      weekOrdinal (← readDigits [a, b, c, d]) (← readDigits [w, x]) (← readDigits [e])
  | [a, b, c, d, '-', 'W', w, x, '-', e] => do
      weekOrdinal (← readDigits [a, b, c, d]) (← readDigits [w, x]) (← readDigits [e])
  | [a, b, c, d, m, n, e, f] => do
      ordinal (← readDigits [a, b, c, d]) (← readDigits [m, n]) (← readDigits [e, f])
  | [a, b, c, d, '-', m, n, '-', e, f] => do
      ordinal (← readDigits [a, b, c, d]) (← readDigits [m, n]) (← readDigits [e, f])
  | _ => none

/-! ## Actions -/

inductive ActionKind where
  | advanceEvaluationEpoch
  | setExecutionState
  | renew
  deriving DecidableEq

def ActionKind.text : ActionKind → String
  | .advanceEvaluationEpoch => "advance_evaluation_epoch"
  | .setExecutionState => "set_execution_state"
  | .renew => "renew"

def ActionKind.ofText (text : String) : Option ActionKind :=
  [ActionKind.advanceEvaluationEpoch, .setExecutionState, .renew].find? (·.text = text)

/-- The payload of an action. Every reader looks a key up and every writer sorts the keys, so the
members are kept in key order. -/
structure Payload where
  items : Dict String String
  sorted : items.Pairwise fun m n => m.1 ≤ n.1
  deriving DecidableEq

def Payload.ofDict (d : Dict String String) : Payload where
  items := sortByKey d
  sorted := List.pairwise_insertionSort (fun m n : String × String => m.1 ≤ n.1) d

def Payload.get (p : Payload) (key : String) : Option String := Dict.lookup p.items key

structure SchedulingAction where
  actionId : String
  sequence : Nat
  kind : ActionKind
  effectiveUtcDate : String
  previousActionDigest : String
  authorizationReceipt : String
  actor : String
  payload : Payload
  deriving DecidableEq

/-- `action.model_dump(mode="json")` -/
def SchedulingAction.modelDump (action : SchedulingAction) : Json :=
  .obj
    [("action_id", .str action.actionId), ("sequence", .int action.sequence),
      ("kind", .str action.kind.text), ("effective_utc_date", .str action.effectiveUtcDate),
      ("previous_action_digest", .str action.previousActionDigest),
      ("authorization_receipt", .str action.authorizationReceipt), ("actor", .str action.actor),
      ("payload", .obj (action.payload.items.map fun m => (m.1, .str m.2)))]

/-- The conditions of the model's fields. -/
def SchedulingAction.Valid (action : SchedulingAction) : Prop :=
  action.actionId ≠ "" ∧ 1 ≤ action.sequence ∧ (fromIsoformat action.effectiveUtcDate).isSome ∧
    action.authorizationReceipt ≠ "" ∧ action.actor ≠ ""

instance (action : SchedulingAction) : Decidable action.Valid :=
  inferInstanceAs (Decidable (_ ∧ _ ∧ _ ∧ _ ∧ _))

/-- A field of a strict `str`. -/
def strictStr (members : List (String × Json)) (key : String) : Option String :=
  match Dict.lookup members key with
  | some (.str s) => some s
  | _ => none

/-- A field of a strict `dict[str, str]`, empty where it is absent. -/
def strictTexts (members : List (String × Json)) (key : String) : Option (Dict String String) :=
  match Dict.lookup members key with
  | none => some []
  | some (.obj ms) => ms.mapM fun m =>
      match m.2 with
      | .str s => some (m.1, s)
      | _ => none
  | _ => none

/-- `SchedulingAction.model_validate(data)`, strict; members it does not name are ignored. -/
def modelValidate (data : Json) : Option SchedulingAction :=
  match data with
  | .obj members => do
      let actionId ← strictStr members "action_id"
      let sequence ← match Dict.lookup members "sequence" with
        | some (.int n) => if 1 ≤ n then some n.toNat else none
        | _ => none
      let kind ← (strictStr members "kind").bind ActionKind.ofText
      let effectiveUtcDate ← strictStr members "effective_utc_date"
      let previousActionDigest ← strictStr members "previous_action_digest"
      let authorizationReceipt ← strictStr members "authorization_receipt"
      let actor ← strictStr members "actor"
      let payload ← strictTexts members "payload"
      let action : SchedulingAction :=
        { actionId, sequence, kind, effectiveUtcDate, previousActionDigest, authorizationReceipt,
          actor, payload := .ofDict payload }
      if action.Valid then some action else none
  | _ => none

/-! ## Reading -/

/-- What a reader or a writer raises. -/
inductive Failure where
  /-- `SchedulingLedgerError`: a receipt that is blank -/
  | noReceipt
  | doesNotParse (line : Nat)
  | sequenceGap (line expected got : Nat)
  | chainBreak (sequence : Nat)
  | noAnchor
  | headDiverges (anchor ledger : Nat)
  | epochRollback (today prior : String)
  /-- `cannot activate {prd_id}: registry is {status}` -/
  | cannotActivate (prdId status : String)
  /-- `ActivationRefusedError` -/
  | activationRefused (reason : String) (occupiedSlots : List String)
  /-- `KeyError` or `ValueError` of the state an action is to set -/
  | stateError
  /-- `ValidationError` of an action the model refuses -/
  | validationError
  /-- `UnicodeDecodeError` -/
  | unicodeDecodeError
  deriving DecidableEq

/-- The failures that are a `SchedulingLedgerError`. -/
def Failure.isLedgerError : Failure → Bool
  | .activationRefused _ _ | .stateError | .validationError | .unicodeDecodeError => false
  | _ => true

structure Anchor where
  sequence : Nat
  headDigest : String
  deriving DecidableEq

/-- The two files; the anchor as `_read_anchor` returns it. -/
structure Store where
  ledger : Option ByteArray
  anchor : Option Anchor
  deriving DecidableEq

def Store.empty : Store := ⟨none, none⟩

def genesisDigest : String := "genesis"

section

variable (lib : Stdlib)

def actionDigest (action : SchedulingAction) : String :=
  lib.sha256 (String.ofList (dumps lib compact action.modelDump)).toUTF8

/-- `json.loads(line)`, validated. -/
def parseAction (line : String) : Option SchedulingAction :=
  (parseText plainObject line).toOption.bind modelValidate

/-- The loop of `load_ledger`. -/
@[grind =] def loadLines : Nat → String → List SchedulingAction → List String →
    Except Failure (List SchedulingAction)
  | _, _, actions, [] => .ok actions
  | lineNo, previous, actions, line :: lines =>
      if stripText line = "" then loadLines (lineNo + 1) previous actions lines
      else
        match parseAction line with
        | none => .error (.doesNotParse lineNo)
        | some action =>
            if action.sequence ≠ actions.length + 1 then
              .error (.sequenceGap lineNo (actions.length + 1) action.sequence)
            else if action.previousActionDigest ≠ previous then
              .error (.chainBreak action.sequence)
            else loadLines (lineNo + 1) (actionDigest lib action) (actions ++ [action]) lines

/-- `path.read_text(encoding="utf-8").splitlines()`; the newline translation of `read_text` joins no
two lines and splits none. -/
def ledgerLines (raw : ByteArray) : Except Failure (List String) :=
  match String.fromUTF8? raw with
  | some text => .ok (splitlines text)
  | none => .error .unicodeDecodeError

def loadLedger : Option ByteArray → Except Failure (List SchedulingAction)
  | none => .ok []
  | some raw => do loadLines lib 1 genesisDigest [] (← ledgerLines raw)

def ledgerHeadDigest (actions : List SchedulingAction) : String :=
  (actions.getLast?.map (actionDigest lib)).getD genesisDigest

def verifyLedgerHeadAnchor (anchor : Option Anchor) (actions : List SchedulingAction) :
    Except Failure Unit :=
  match anchor with
  | none => if actions.isEmpty then .ok () else .error .noAnchor
  | some ⟨sequence, head⟩ =>
      if actions.length ≠ sequence ∨ ledgerHeadDigest lib actions ≠ head then
        .error (.headDiverges sequence actions.length)
      else .ok ()

/-- `load_ledger`, then `verify_ledger_head_anchor`. -/
def readLedger (store : Store) : Except Failure (List SchedulingAction) := do
  let actions ← loadLedger lib store.ledger
  verifyLedgerHeadAnchor lib store.anchor actions
  return actions

structure EvaluationEpoch where
  sequence : Nat
  effectiveUtcDate : String
  ledgerHeadDigest : String
  deriving DecidableEq

def genesisEpochDate : String := "1970-01-01"

def deriveEvaluationEpoch (actions : List SchedulingAction) : EvaluationEpoch :=
  match actions.reverse.find? (·.kind = .advanceEvaluationEpoch) with
  | some action => ⟨action.sequence, action.effectiveUtcDate, ledgerHeadDigest lib actions⟩
  | none => ⟨0, genesisEpochDate, ledgerHeadDigest lib actions⟩

def isGenesisEpoch (epoch : EvaluationEpoch) : Bool :=
  epoch.sequence = 0 && epoch.effectiveUtcDate = genesisEpochDate

/-! ## Appending -/

/-- What one append is given: its arguments, `uuid.uuid4()` and the writer's clock. -/
structure Request where
  kind : ActionKind
  payload : Dict String String
  authorizationReceipt : String
  actor : String
  actionId : String
  today : String
  deriving DecidableEq

/-- The action a writer makes at the end of `actions`. -/
def Request.action (request : Request) (actions : List SchedulingAction) : SchedulingAction where
  actionId := request.actionId
  sequence := actions.length + 1
  kind := request.kind
  effectiveUtcDate := request.today
  previousActionDigest := ledgerHeadDigest lib actions
  authorizationReceipt := request.authorizationReceipt
  actor := request.actor
  payload := .ofDict request.payload

/-- `_append_locked` between its reads and its writes. -/
def extend (actions : List SchedulingAction) (request : Request) :
    Except Failure SchedulingAction :=
  let prior := deriveEvaluationEpoch lib actions
  if request.kind = .advanceEvaluationEpoch ∧ request.today < prior.effectiveUtcDate then
    .error (.epochRollback request.today prior.effectiveUtcDate)
  else
    let action := request.action lib actions
    if action.Valid then .ok action else .error .validationError

/-- The line an append writes. -/
def actionLine (action : SchedulingAction) : ByteArray :=
  (String.ofList (dumps lib spaced action.modelDump ++ ['\n'])).toUTF8

/-- `append_checkout_file`, then `_write_anchor`. -/
def Store.write (action : SchedulingAction) (store : Store) : Store where
  ledger := some (store.ledger.getD ByteArray.empty ++ actionLine lib action)
  anchor := some ⟨action.sequence, actionDigest lib action⟩

/-- `_append_locked` -/
def appendLocked (request : Request) : Eff Failure Store SchedulingAction := do
  if stripText request.authorizationReceipt = "" then Eff.raise .noReceipt
  else
    let store ← Eff.read
    match readLedger lib store >>= fun actions => extend lib actions request with
    | .error failure => Eff.raise failure
    | .ok action => do
        Eff.update (Store.write lib action)
        return action

end

end TrwMcp.Scheduling
