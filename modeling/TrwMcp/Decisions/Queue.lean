import TrwMcp.State.Jsonl
import TrwMcp.Lib.Run

/-!
# The blocked-decision queue

A decision and its resolution are two rows of one append-only file, under one identifier. A reader
derives the pending and the resolved decisions from the rows; one line it cannot parse makes the
whole file unreadable. A resolver reads, decides, and appends, and holds no lock across the three.
-/

namespace TrwMcp.Decisions

open Lib Handoff State

/-! ## Reading -/

structure DecisionQueueState where
  pendingIds : List String := []
  resolvedIds : List String := []
  unreadable : Bool := false
  records : Dict String Json := []
  resolutions : Dict String Json := []
  deriving DecidableEq

/-- The variables of the loop over the rows. -/
structure Scan where
  pendingOrder : List String := []
  records : Dict String Json := []
  resolutions : Dict String Json := []

def Scan.row (s : Scan) (row : Json) : Scan :=
  match row.getStr? "id" with
  | none => s
  | some rowId =>
      if rowId = "" then s
      else if row.get? "status" = some (.str "pending") then
        { s with
            pendingOrder :=
              if Dict.has s.records rowId then s.pendingOrder else s.pendingOrder ++ [rowId]
            records := Dict.set s.records rowId row }
      else if row.get? "status" = some (.str "resolved") then
        if row.get? "actor" ≠ some (.str "unattended") then
          { s with resolutions := Dict.set s.resolutions rowId row }
        else s
      else s

def Scan.state (s : Scan) : DecisionQueueState where
  pendingIds := s.pendingOrder.filter fun id => !Dict.has s.resolutions id
  resolvedIds := s.resolutions.map (·.1)
  records := s.records
  resolutions := s.resolutions

/-- `read_decision_queue`; a file that does not exist has no lines. -/
def readDecisionQueue {L : Type} (loads : L → Loaded Json) (lines : List L) : DecisionQueueState :=
  match readJsonl loads lines with
  | none => { unreadable := true }
  | some rows => (rows.foldl Scan.row {}).state

/-! ## Rows -/

structure Decision where
  id : String
  ts : String
  runPath : String
  question : String
  options : List String
  whyUnreachable : String
  /-- `unattended_actor_active()` -/
  unattended : Bool

/-- The row `record_decision` appends. -/
def Decision.row (d : Decision) : Json :=
  .obj
    [("id", .str d.id), ("ts", .str d.ts), ("status", .str "pending"), ("run_path", .str d.runPath),
      ("question", .str d.question), ("options", .arr (d.options.map .str)),
      ("why_unreachable", .str d.whyUnreachable),
      ("actor", .str (if d.unattended then "unattended" else "attended"))]

structure ResolveArgs where
  decisionId : String
  choice : String
  actor : String
  deriving DecidableEq

/-- The row `resolve_decision` appends. -/
def ResolveArgs.row (args : ResolveArgs) (ts : String) : Json :=
  .obj
    [("id", .str args.decisionId), ("ts", .str ts), ("status", .str "resolved"),
      ("choice", .str args.choice), ("actor", .str args.actor)]

/-- What `resolve_decision` does after its read. -/
inductive Reading where
  | refused
  | known (row : Json)
  | append
  deriving DecidableEq

def beginResolve (state : DecisionQueueState) (decisionId : String) : Reading :=
  if state.unreadable then .refused
  else
    match Dict.lookup state.resolutions decisionId with
    | some row => .known row
    | none => if Dict.has state.records decisionId then .append else .refused

/-! ## Runs -/

inductive Entry where
  | decision (d : Decision)
  | resolution (args : ResolveArgs) (ts : String)

def Entry.row : Entry → Json
  | .decision d => d.row
  | .resolution args ts => args.row ts

/-- The file, and the resolvers that have read and not yet appended. The rest is what happened, and
nothing stores it: the identifiers drawn, the rows whose text was written, the resolutions callers
were given, and whether an append stopped part way. -/
structure World (A : Type) where
  file : JsonlFile Json := {}
  resolving : A → Option ResolveArgs
  issued : List String := []
  log : List Entry := []
  returned : List (String × Json) := []
  cut : Bool := false

def World.state {A : Type} (w : World A) : DecisionQueueState :=
  readDecisionQueue loadsLine w.file.seen

/-- A row on its way into the file. -/
def World.append {A : Type} (w : World A) (entry : Entry) (written : Written) : World A :=
  { w with
      file := w.file.append entry.row written
      log := if written.lands then w.log ++ [entry] else w.log
      cut := w.cut || written.cut }

inductive Deed (A : Type) where
  | record (d : Decision) (written : Written)
  | read (a : A) (args : ResolveArgs)
  | append (a : A) (ts : String) (written : Written) (returns : Bool)
  | stop (a : A)

variable {A : Type} [DecidableEq A]

/-- One step. The identifier of a decision is new and not empty (`uuid4`), and a call returns only
once its whole line is written. -/
inductive Step : World A → Deed A → World A → Prop
  | recorded {w : World A} {d : Decision} {written : Written} (hid : d.id ≠ "")
      (hnew : d.id ∉ w.issued) :
      Step w (.record d written)
        { w.append (.decision d) written with issued := w.issued ++ [d.id] }
  | refused {w : World A} {a : A} {args : ResolveArgs}
      (h : beginResolve w.state args.decisionId = .refused) : Step w (.read a args) w
  | known {w : World A} {a : A} {args : ResolveArgs} {row : Json}
      (h : beginResolve w.state args.decisionId = .known row) :
      Step w (.read a args) { w with returned := w.returned ++ [(args.decisionId, row)] }
  | read {w : World A} {a : A} {args : ResolveArgs}
      (h : beginResolve w.state args.decisionId = .append) :
      Step w (.read a args) { w with resolving := Function.update w.resolving a (some args) }
  | appended {w : World A} {a : A} {args : ResolveArgs} {ts : String} {written : Written}
      {returns : Bool} (h : w.resolving a = some args) (hreturns : returns = true → written = .line) :
      Step w (.append a ts written returns)
        { w.append (.resolution args ts) written with
            resolving := Function.update w.resolving a none
            returned :=
              if returns then w.returned ++ [(args.decisionId, args.row ts)] else w.returned }
  | stopped {w : World A} {a : A} :
      Step w (.stop a) { w with resolving := Function.update w.resolving a none }

end TrwMcp.Decisions
