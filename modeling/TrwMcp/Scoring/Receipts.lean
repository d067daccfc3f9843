import TrwMcp.Intent.LedgerRuns
import TrwMcp.Lib.Text

/-!
# Recall receipts

`correlate_recalls` reads the recall log backwards and collects the ids of the receipts between the
cutoff and now. It stops after fifty old receipts in a row, since the log is appended to in
chronological order.
-/

namespace TrwMcp.Scoring

open Intent Lib Text

/-- A Python string by its code points: a JSON text can spell lone surrogates. -/
abbrev Str := List Nat

/-- The string of a literal. -/
def str (s : String) : Str := s.toList.map Char.toNat

/-- A decoded JSON value. Booleans and numbers stand as their `str`. -/
inductive Value where
  | null
  | scalar (text : Str)
  | str (s : Str)
  | list (items : List Value)
  | dict (members : List (Str × Value))

abbrev Record := List (Str × Value)

/-- The exceptions that decoding a receipt can raise. -/
inductive Exc where
  | valueError
  | osError
  | overflowError
  | recursionError
  deriving DecidableEq

/-- `json.loads`, `_ensure_utc(datetime.fromisoformat(text))`,
`datetime.fromtimestamp(float(text), tz=timezone.utc)` and the `str` of a list or dict, with times in
microseconds. -/
structure Library where
  loads : List Char → Except Exc Value
  isoTime : Str → Except Exc Int
  epochTime : Str → Except Exc Int
  strOf : Value → Str

/-- A learning id among the values of `matched_ids`. -/
def Value.learningId : Value → Option Str
  | .str s => if s.isEmpty then none else some s
  | _ => none

/-- `_extract_recalled_ids` -/
def extractRecalledIds (record : Record) : List Str :=
  match Dict.lookup record (str "matched_ids") with
  | some (.list (item :: items)) => (item :: items).filterMap Value.learningId
  | _ =>
      match (Dict.lookup record (str "learning_id")).bind Value.learningId with
      | none => []
      | some lid =>
          match Dict.lookup record (str "outcome") with
          | none | some .null | some (.str []) => [lid]
          | some _ => []

section

variable (lib : Library)

/-- `str(value)` -/
def Library.str : Value → Str
  | .null => Scoring.str "None"
  | .scalar text => text
  | .str s => s
  | value => lib.strOf value

/-- `_parse_receipt_line`: none for a line that is skipped, one that is no object among them. -/
def parseReceiptLine (line : List Char) : Except Exc (Option Record) :=
  match lib.loads line with
  | .ok (.dict members) => .ok (some members)
  | .ok _ => .ok none
  | .error .valueError => .ok none
  | .error e => .error e

/-- `text.replace("Z", "+00:00")` -/
def replaceZulu (text : Str) : Str :=
  text.flatMap fun c => if c = 'Z'.toNat then str "+00:00" else [c]

/-- `_parse_receipt_timestamp` -/
def parseReceiptTimestamp (record : Record) : Except Exc (Option Int) :=
  let tsStr := match Dict.lookup record (str "ts") with
    | some value => lib.str value
    | none => []
  if tsStr ≠ [] then
    match lib.isoTime (replaceZulu tsStr) with
    | .ok time => .ok (some time)
    | .error .valueError => .ok none
    | .error e => .error e
  else
    match Dict.lookup record (str "timestamp") with
    | none | some .null => .ok none
    | some value =>
        match lib.epochTime (lib.str value) with
        | .ok time => .ok (some time)
        | .error .valueError | .error .osError => .ok none
        | .error e => .error e

/-- `record.get("outcome") is not None` -/
def hasOutcome (record : Record) : Bool :=
  match Dict.lookup record (str "outcome") with
  | none | some .null => false
  | some _ => true

/-- `_CONSECUTIVE_OLD_EARLY_EXIT` -/
def consecutiveOldEarlyExit : Nat := 50

variable (cutoff now : Int)

/-- The loop of `correlate_recalls` over the reversed lines, from `consecutive_old` and `results`. -/
@[grind =] def scanReceipts : List (List Char) → Nat → List Str → Except Exc (List Str)
  | [], _, results => .ok results
  | line :: rest, consecutiveOld, results =>
      let stripped := stripChars line
      if stripped = [] then scanReceipts rest consecutiveOld results
      else
        match parseReceiptLine lib stripped with
        | .error e => .error e
        | .ok none => scanReceipts rest consecutiveOld results
        | .ok (some record) =>
            if hasOutcome record then scanReceipts rest consecutiveOld results
            else
              match parseReceiptTimestamp lib record with
              | .error e => .error e
              | .ok none => scanReceipts rest consecutiveOld results
              | .ok (some receiptTs) =>
                  if receiptTs < cutoff then
                    if consecutiveOldEarlyExit ≤ consecutiveOld + 1 then .ok results
                    else scanReceipts rest (consecutiveOld + 1) results
                  else if now - receiptTs < 0 then scanReceipts rest 0 results
                  else scanReceipts rest 0 (results ++ extractRecalledIds record)

end

/-- What there is to read of `recall_tracking.jsonl`. -/
inductive ReceiptLog where
  | missing
  | unreadable
  | text (cs : List Char)

/-- What `correlate_recalls` reads besides the log. -/
structure Correlation where
  now : Int
  windowMinutes : Int
  scope : String
  sessionStart : Option Int

/-- `cutoff_ts` -/
def Correlation.cutoff (c : Correlation) : Int :=
  let window := c.now - c.windowMinutes * 60000000
  if c.scope = "session" then c.sessionStart.getD window else window

/-- `correlate_recalls`. The newline translation of `read_text` moves no line end. -/
def correlateRecalls (lib : Library) (c : Correlation) : ReceiptLog → Except Exc (List Str)
  | .missing | .unreadable => .ok []
  | .text cs => scanReceipts lib c.cutoff c.now (linesOf cs).reverse 0 []

end TrwMcp.Scoring
