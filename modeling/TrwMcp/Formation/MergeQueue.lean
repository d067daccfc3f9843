import TrwMcp.Formation.MergeGit
import TrwMcp.Lib.Run

/-!
# The merge queue

The queue is an event log: every call replays it, and appends. Calls are serialized by the ledger
lock, and a call may end between any two of its appends, or inside the git work. `Queue` is what the
replay of a log yields in every reachable state.
-/

namespace TrwMcp.Formation

open Lib

/-- One line of the event log, with the text members a merge event has. -/
structure Row where
  event : String
  data : Dict String String

structure MergeItem where
  approvalId : String
  branch : String
  sha : String
  memberId : String
  receiptId : String
  approverMemberId : String
  approverPinDigest : String
  admittedAt : String
  state : String := "approved"
  reason : String := ""
  mergeSha : String := ""
  deriving DecidableEq

def MergeItem.asDict (item : MergeItem) : Dict String String :=
  [("approval_id", item.approvalId), ("branch", item.branch), ("sha", item.sha),
    ("member_id", item.memberId), ("receipt_id", item.receiptId),
    ("approver_member_id", item.approverMemberId),
    ("approver_pin_digest", item.approverPinDigest), ("admitted_at", item.admittedAt),
    ("state", item.state), ("reason", item.reason), ("merge_sha", item.mergeSha)]

/-- `_EVENTS` -/
def mergeEvents : List String :=
  ["formation_merge_approved", "formation_merge_attempt", "formation_merge_merged",
    "formation_merge_stopped"]

/-- `[0-9a-f]{32}` -/
def isApprovalId (key : String) : Bool :=
  key.length == 32 && key.toList.all fun c => c.isDigit || decide ('a' ≤ c ∧ c ≤ 'f')

/-- The line `_append` writes. -/
def eventRow (event : String) (item : MergeItem) (extra : List (String × String)) : Row where
  event
  data := if event = "formation_merge_approved" then item.asDict
    else ("approval_id", item.approvalId) :: extra

/-! ## Replay -/

/-- The item an approval row declares. -/
def approvedItem (key : String) (data : Dict String String) : Option MergeItem := do
  return {
    approvalId := key
    branch := ← Dict.lookup data "branch"
    sha := ← Dict.lookup data "sha"
    memberId := ← Dict.lookup data "member_id"
    receiptId := ← Dict.lookup data "receipt_id"
    approverMemberId := ← Dict.lookup data "approver_member_id"
    approverPinDigest := ← Dict.lookup data "approver_pin_digest"
    admittedAt := ← Dict.lookup data "admitted_at" }

def newState (event : String) : String :=
  if event = "formation_merge_attempt" then "attempted"
  else if event = "formation_merge_merged" then "merged" else "stopped"

/-- The item after a later event on it. -/
def MergeItem.advance (item : MergeItem) (event : String) (data : Dict String String) : MergeItem :=
  { item with
    state := newState event
    reason := (Dict.lookup data "reason").getD ""
    mergeSha := (Dict.lookup data "merge_sha").getD "" }

/-- One row of the replay; the error is the reason of the refusal. -/
def replayRow (items : Dict String MergeItem) (row : Row) :
    Except String (Dict String MergeItem) :=
  if row.event ∉ mergeEvents then pure items
  else
    match (Dict.lookup row.data "approval_id").filter isApprovalId with
    | none => throw "ledger_malformed"
    | some key =>
        if row.event = "formation_merge_approved" then
          if Dict.has items key then throw "ledger_malformed"
          else
            match approvedItem key row.data with
            | none => throw "ledger_malformed"
            | some item => pure (Dict.set items key item)
        else
          match Dict.lookup items key with
          | none => throw "ledger_malformed"
          | some old =>
              if old.state =
                  (if row.event = "formation_merge_attempt" then "approved" else "attempted") then
                pure (Dict.set items key (old.advance row.event row.data))
              else throw "ledger_malformed"

/-- `_replay` -/
def replay (ledger : List Row) : Except String (Dict String MergeItem) := ledger.foldlM replayRow []

/-! ## The calls -/

/-- The log, and the approvals whose attempt moved the target ref. -/
structure State where
  ledger : List Row := []
  moved : List String := []

/-- One approval call: the caller's authority, its arguments, and what `enqueue` draws. -/
structure EnqueueCall where
  caller : Except String String
  branch : String
  sha : String
  memberId : String
  receiptId : String
  declared : Bool
  token : String
  approver : String
  pinDigest : String
  now : String
  /-- the call ends before its append -/
  crashes : Bool

/-- `_RECEIPT.fullmatch(receipt_id)` -/
def isReceiptId (receiptId : String) : Bool :=
  "build-".toList.isPrefixOf receiptId.toList &&
    isApprovalId (String.ofList (receiptId.toList.drop 6))

/-- The item `enqueue` approves. -/
def EnqueueCall.item (c : EnqueueCall) : MergeItem where
  approvalId := c.token
  branch := c.branch
  sha := c.sha
  memberId := c.memberId
  receiptId := c.receiptId
  approverMemberId := c.approver
  approverPinDigest := c.pinDigest
  admittedAt := c.now

/-- What an approval is for. -/
def MergeItem.subject (item : MergeItem) : String × String × String × String :=
  (item.branch, item.sha, item.memberId, item.receiptId)

/-- `enqueue` -/
def enqueue (s : State) (c : EnqueueCall) : Except String MergeItem × State :=
  match c.caller with
  | .error reason => (throw reason, s)
  | .ok _ =>
      if !isSha c.sha ∨ !isReceiptId c.receiptId then (throw "invalid_approval", s)
      else if !c.declared then (throw "undeclared_member", s)
      else
        match replay s.ledger with
        | .error reason => (throw reason, s)
        | .ok items =>
            match items.find? fun m => m.2.state ≠ "stopped" && m.2.subject = c.item.subject with
            | some old => (pure old.2, s)
            | none =>
                if c.crashes then (throw "crashed", s)
                else (pure c.item,
                  { s with ledger := s.ledger ++ [eventRow "formation_merge_approved" c.item []] })

/-- Where a `run_one` that does not finish ends. After the attempt is recorded the target ref may
have moved or not. -/
inductive Crash where
  | beforeAttempt
  | afterAttempt (moved : Bool)

/-- One `run_one` call: what the checks and the git commands answer. -/
structure RunCall where
  caller : Except String String
  target : String
  checkReceipt : MergeItem → Attempt Unit
  ownerOf : String → Attempt (Option String)
  prepareGit : Git
  applyGit : Git
  /-- what an `update-ref` that does not exit with status 0 did to the target ref -/
  updateMoves : Bool
  crash : Option Crash

/-- Every changed path belongs to the member. -/
def checkOwners (c : RunCall) (memberId : String) (paths : List String) : Attempt Unit :=
  paths.forM fun changed => do
    if (← c.ownerOf changed) ≠ some memberId then throw (.reason "unowned_path")

/-- The checks of an attempt: the old target and the tree to commit. -/
def checkAttempt (c : RunCall) (pending : MergeItem) : Attempt (String × String) := do
  c.checkReceipt pending
  let (old, tree, paths) ← prepare c.prepareGit pending.branch pending.sha c.target
  if paths = [] then throw (.reason "empty_change")
  checkOwners c pending.memberId paths
  return (old, tree)

/-- An attempt, and whether it moved the target ref. -/
def attempt (c : RunCall) (pending : MergeItem) : Attempt String × Bool :=
  match checkAttempt c pending with
  | .error stop => (throw stop, false)
  | .ok (old, tree) =>
      apply c.applyGit c.updateMoves pending.branch pending.sha c.target old tree

/-- The row that ends an attempt; an uncaught exception leaves none. -/
def terminalRow (pending : MergeItem) : Attempt String → List Row
  | .ok merged => [eventRow "formation_merge_merged" pending [("merge_sha", merged)]]
  | .error (.reason reason) => [eventRow "formation_merge_stopped" pending [("reason", reason)]]
  | .error .ownership =>
      [eventRow "formation_merge_stopped" pending [("reason", "ownership_unavailable")]]
  | .error .uncaught => []

/-- What `run_one` returns or raises. -/
def runResult (pending : MergeItem) : Attempt String → Except String MergeItem
  | .ok merged => pure { pending with state := "merged", mergeSha := merged }
  | .error (.reason reason) => throw reason
  | .error .ownership => throw "ownership_unavailable"
  | .error .uncaught => throw "uncaught"

/-- The state after rows were appended for an attempt. -/
def State.record (s : State) (pending : MergeItem) (rows : List Row) (moved : Bool) : State where
  ledger := s.ledger ++ eventRow "formation_merge_attempt" pending [] :: rows
  moved := if moved then pending.approvalId :: s.moved else s.moved

def isPending (item : MergeItem) : Bool := item.state = "approved" || item.state = "attempted"

/-- `run_one` -/
def runOne (s : State) (c : RunCall) : Except String MergeItem × State :=
  match c.caller with
  | .error reason => (throw reason, s)
  | .ok _ =>
      match replay s.ledger with
      | .error reason => (throw reason, s)
      | .ok items =>
          match items.find? fun m => isPending m.2 with
          | none => (throw "queue_empty", s)
          | some (_, pending) =>
              if pending.state ≠ "approved" then (throw "requires_reconciliation", s)
              else
                match c.crash with
                | some .beforeAttempt => (throw "crashed", s)
                | some (.afterAttempt moved) => (throw "crashed", s.record pending [] moved)
                | none =>
                    let (result, moved) := attempt c pending
                    (runResult pending result, s.record pending (terminalRow pending result) moved)

/-- A call on the queue, or another event logged to the same file. -/
inductive Op where
  | enqueue (c : EnqueueCall)
  | runOne (c : RunCall)
  | other (row : Row)

/-- One serialized step. A fresh token is 32 hexadecimal digits that no approval has. -/
inductive Step (s : State) : Op → State → Prop
  | enqueue {c : EnqueueCall} (valid : isApprovalId c.token = true)
      (fresh : ∀ items, replay s.ledger = .ok items → Dict.has items c.token = false) :
      Step s (.enqueue c) (enqueue s c).2
  | runOne {c : RunCall} : Step s (.runOne c) (runOne s c).2
  | other {row : Row} (foreign : row.event ∉ mergeEvents) :
      Step s (.other row) { s with ledger := s.ledger ++ [row] }

/-- An `update-ref` of this call that does not report success did not move the target. -/
def Op.truthful : Op → Prop
  | runOne c => c.updateMoves = false
  | _ => True

/-! ## The log as a history -/

/-- The approval id of a row of this event. -/
def rowId (event : String) (row : Row) : Option String :=
  if row.event = event then Dict.lookup row.data "approval_id" else none

/-- The ids the log approves, in order. -/
def approvals (ledger : List Row) : List String :=
  ledger.filterMap (rowId "formation_merge_approved")

/-- The ids the log attempts, in order. -/
def attempts (ledger : List Row) : List String :=
  ledger.filterMap (rowId "formation_merge_attempt")

/-- A row that ends an attempt. -/
def isTerminalRow (row : Row) : Prop :=
  row.event = "formation_merge_merged" ∨ row.event = "formation_merge_stopped"

theorem replay_snoc {ledger : List Row} {row : Row} {items : Dict String MergeItem}
    (h : replay ledger = .ok items) : replay (ledger ++ [row]) = replayRow items row := by
  rw [replay, List.foldlM_append, ← replay, h]
  simp only [List.foldlM_cons, List.foldlM_nil, bind_pure]
  rfl

theorem set_middle {d e : Dict String MergeItem} {k : String} {v w : MergeItem}
    (hk : k ∉ d.map (·.1)) : Dict.set (d ++ (k, v) :: e) k w = d ++ (k, w) :: e := by
  induction d with
  | nil => simp [Dict.set]
  | cons m d ih =>
      obtain ⟨l, x⟩ := m
      simp only [List.map_cons, List.mem_cons, not_or] at hk
      rw [List.cons_append, Dict.set, if_neg (Ne.symm hk.1), ih hk.2, List.cons_append]

theorem lookup_middle {d e : Dict String MergeItem} {k : String} {v : MergeItem}
    (hk : k ∉ d.map (·.1)) : Dict.lookup (d ++ (k, v) :: e) k = some v := by
  rw [Dict.lookup_append, Dict.lookup_eq_none_iff.mpr hk, Option.none_or, Dict.lookup_cons,
    if_pos rfl]

end TrwMcp.Formation
