import TrwMcp.Lib.Run
import TrwMcp.Lib.Effect

/-!
# Promotion and rollback of one target

`promote_candidate` appends to the audit log, asks the gate, and on an approval writes the backup,
the target and the snapshot one after the other; `rollback_proposal` puts the backup back. Every
file write may raise, with or without effect.
-/

namespace TrwMcp.MetaTune

open Lib

abbrev Content := List UInt8

/-- What a write raises: `AuditAppendError` or `AuditIntegrityError`, which the gate catches, or
anything else. -/
inductive Fault where
  | audit
  | other
deriving DecidableEq

/-- How a write ends. -/
inductive Fate where
  | ok
  | raises (fault : Fault) (landed : Bool)
deriving DecidableEq

/-- The fields of an audit entry that the gate and its history read; the chain hashes and the
timestamps are left out. -/
structure AuditEntry where
  editId : String
  event : String
  gateDecision : String
  voteType : Option String := none
  verdict : Option String := none
  reason : String := ""
  delta : Option ℚ := none
deriving DecidableEq

structure Snapshot where
  backup : String
  promotionTs : ℚ
  rollbackAttempts : Nat
deriving DecidableEq

/-- A promotion whose target write has landed: the content before it and the content it wrote. -/
structure Promotion where
  edit : String
  prior : Option Content
  content : Content
deriving DecidableEq

/-- The files. `live` and `retired` are not files: the promotions in force, latest first, and the
contents of the edits rolled back and not promoted since. -/
structure Store where
  target : Option Content
  backups : String → Option Content := fun _ => none
  snapshots : String → Option Snapshot := fun _ => none
  rolled : String → Bool := fun _ => false
  audit : List AuditEntry := []
  live : List Promotion := []
  retired : List Content := []

abbrev Act (α : Type) := Eff Fault Store α

/-- A write of the given fate. -/
def writing (fate : Fate) (f : Store → Store) : Act Unit :=
  match fate with
  | .ok => Eff.update f
  | .raises fault true => do
      Eff.update f
      Eff.raise fault
  | .raises fault false => Eff.raise fault

def appendAuditEntry (fate : Fate) (entry : AuditEntry) : Act Unit :=
  writing fate fun s => { s with audit := s.audit ++ [entry] }

/-- The votes of the gate. -/
inductive Vote where
  | evalGaming
  | outcome
  | goodhart
  | human
deriving DecidableEq

def Vote.type : Vote → String
  | .evalGaming => "eval_gaming"
  | .outcome => "outcome"
  | .goodhart => "goodhart"
  | .human => "human"

def votes : List Vote := [.evalGaming, .outcome, .goodhart, .human]

/-- The writes of a promotion. -/
inductive Site where
  | proposed
  | staged
  | sandboxed
  | rejected
  | vote (v : Vote)
  | gate
  | backup
  | target
  | snapshot
deriving DecidableEq

structure SandboxResult where
  writesOutsideTmp : Bool
  networkAttempted : Bool
  exitCode : Int
  timedOut : Bool

/-- One call of `promote_candidate`: its arguments, the configuration, and what the classifier, the
sandbox, the detector and the file system answer. -/
structure PromoteCall where
  editId : String
  candidate : Content
  now : ℚ
  enabled : Bool
  quorum : Nat
  readable : Bool
  isControl : Bool
  sandbox : SandboxResult
  /-- the sandbox report parses -/
  reports : Bool
  /-- declared by the caller, or by the report -/
  metricDelta : Option ℚ
  evalOk : Bool
  humanOk : Bool
  fates : Site → Fate

structure GateDecision where
  decision : String
  reason : String
deriving DecidableEq

/-- `_GOODHART_MIN_HISTORY`, `_GOODHART_SPIKE_RATIO` -/
def goodhartMinHistory : Nat := 3

def goodhartSpikeRatio : ℚ := 10

/-- `load_recent_history`: the deltas of the last promotions. -/
def recentHistory (log : List AuditEntry) : List ℚ :=
  let history := log.filterMap fun e => if e.event = "promoted" then e.delta else none
  history.drop (history.length - 20)

def outcomeOk (delta : ℚ) : Bool := 0 < delta

def goodhartOk (history : List ℚ) (delta : ℚ) : Bool :=
  if history.length < goodhartMinHistory then true
  else
    let maxPrior := (history.map abs).foldl max 0
    if maxPrior = 0 then delta ≤ 1 / 20 else delta ≤ goodhartSpikeRatio * maxPrior

def isAuditFault (fault : Fault) : Bool := fault = .audit

def unavailable : GateDecision := ⟨"reject", "safety-dependency-unavailable"⟩

section

variable (call : PromoteCall)

/-- Whether the vote passes, by the four checks of the gate. -/
def passes (history : List ℚ) (delta : ℚ) : Vote → Bool
  | .evalGaming => call.evalOk
  | .outcome => outcomeOk delta
  | .goodhart => goodhartOk history delta
  | .human => call.humanOk

def voteEntry (history : List ℚ) (delta : ℚ) (v : Vote) : AuditEntry where
  editId := call.editId
  event := "vote"
  gateDecision := "pending"
  voteType := some v.type
  verdict := some (if passes call history delta v then "pass" else "fail")

@[grind =] def appendVotes (history : List ℚ) (delta : ℚ) : List Vote → Act Unit
  | [] => pure ()
  | v :: vs => do
      appendAuditEntry (call.fates (.vote v)) (voteEntry call history delta v)
      appendVotes history delta vs

def persistVotes (history : List ℚ) (delta : ℚ) : Act Bool :=
  Eff.handle isAuditFault
    (do
      appendVotes call history delta votes
      pure true)
    fun _ => pure false

def gateEntry (delta : ℚ) (d : GateDecision) : AuditEntry where
  editId := call.editId
  event :=
    if d.decision = "approve" then "promoted"
    else if d.decision = "reject" then "rejected" else "gated"
  gateDecision := d.decision
  reason := d.reason
  delta := some delta

/-- `_record` -/
def record (delta : ℚ) (d : GateDecision) : Act GateDecision :=
  Eff.handle isAuditFault
    (do
      appendAuditEntry (call.fates .gate) (gateEntry call delta d)
      pure d)
    fun _ => pure unavailable

/-- `vote_count` -/
def voteCount (history : List ℚ) (delta : ℚ) : Nat :=
  (votes.filter (passes call history delta)).length

/-- The decision of `evaluate` once the votes are persisted. -/
def verdict (history : List ℚ) (delta : ℚ) : GateDecision :=
  if !passes call history delta .evalGaming then ⟨"reject", "eval-artifact-modification"⟩
  else if !passes call history delta .outcome then ⟨"reject", "outcome-correlation-fail"⟩
  else if !passes call history delta .goodhart then ⟨"reject", "goodhart-flag"⟩
  else if !passes call history delta .human then ⟨"needs_human_review", "awaiting-human-signoff"⟩
  else if voteCount call history delta < call.quorum then
    ⟨"needs_human_review", "consensus-quorum-not-met"⟩
  else ⟨"approve", "promoted"⟩

def evaluate (history : List ℚ) (delta : ℚ) : Act GateDecision := do
  if ← persistVotes call history delta then record call delta (verdict call history delta)
  else pure unavailable

def entry (event gateDecision reason : String) : AuditEntry where
  editId := call.editId
  event := event
  gateDecision := gateDecision
  reason := reason

def reject (reason : String) : Act GateDecision := do
  appendAuditEntry (call.fates .rejected) (entry call "rejected" "reject" reason)
  pure ⟨"reject", reason⟩

/-- Everything up to the decision: `_run_after_staging` before its writes. -/
def runAfterStaging : Act GateDecision := do
  -- the staged candidate lies in a workspace of its own
  writing (call.fates .staged) id
  appendAuditEntry (call.fates .sandboxed) (entry call "sandboxed" "pending" "")
  if call.sandbox.writesOutsideTmp || call.sandbox.networkAttempted then
    reject call "sandbox-policy-violation"
  else if call.sandbox.exitCode ≠ 0 ∨ call.sandbox.timedOut then
    reject call "sandbox-replay-failed"
  else if !call.reports then Eff.raise .other
  else
    match call.metricDelta with
    | none => Eff.raise .other
    | some delta => do
        let s ← Eff.read
        evaluate call (recentHistory s.audit) delta

/-- `write_promotion_backup`: an absent target backs up as empty. -/
def writeBackup : Act Unit :=
  writing (call.fates .backup) fun s =>
    { s with backups := Function.update s.backups call.editId (some (s.target.getD [])) }

/-- The write of the target; the promotion is in force from here. -/
def writeTarget : Act Unit :=
  writing (call.fates .target) fun s =>
    { s with
      target := some call.candidate
      live := ⟨call.editId, s.target, call.candidate⟩ :: s.live
      retired := s.retired.filter (· ≠ call.candidate) }

def persistSnapshot : Act Unit :=
  writing (call.fates .snapshot) fun s =>
    { s with
      snapshots := Function.update s.snapshots call.editId (some ⟨call.editId, call.now, 0⟩) }

/-- What an approval leads to. -/
def publish : Act Unit := do
  writeBackup call
  writeTarget call
  persistSnapshot call

def promoteCandidate : Act GateDecision := do
  if !call.enabled then pure ⟨"reject", "meta-tune-disabled"⟩
  else if !call.readable then Eff.raise .other
  else do
    appendAuditEntry (call.fates .proposed) (entry call "proposed" "pending" "")
    if call.isControl then reject call "control-surface-violation"
    else do
      let d ← runAfterStaging call
      if d.decision = "approve" then publish call
      pure d

end

/-! ## Rollback -/

/-- One call of `rollback_proposal`; the flags say what can be read. -/
structure RollbackCall where
  proposalId : String
  now : ℚ
  enabled : Bool
  maxAttempts : Nat
  snapshotReadable : Bool
  backupReadable : Bool
  restore : Fate
  mark : Fate
  audit : Fate
  attempts : Fate

inductive RollbackStatus where
  | rolledBack
  | missing
  | disabled
  | error
  | windowExpired
deriving DecidableEq

def rollbackWindow : ℚ := 30 * 86400

section

variable (call : RollbackCall)

/-- The bookkeeping of a failed rollback; its own failure is swallowed. -/
def countAttempt : Act Unit :=
  Eff.handle (fun _ => true)
    (writing call.attempts fun s =>
      { s with
        snapshots := Function.update s.snapshots call.proposalId
          ((s.snapshots call.proposalId).map fun snap =>
            { snap with rollbackAttempts := snap.rollbackAttempts + 1 }) })
    fun _ => pure ()

def restoreTarget (content : Content) : Act Unit :=
  writing call.restore fun s => { s with target := some content }

/-- `snapshot_path.replace(rolled_path)`; the edit is rolled back from here. -/
def markRolled : Act Unit :=
  writing call.mark fun s =>
    { s with
      snapshots := Function.update s.snapshots call.proposalId none
      rolled := Function.update s.rolled call.proposalId true
      live := s.live.filter (·.edit ≠ call.proposalId)
      retired := ((s.live.filter (·.edit = call.proposalId)).map (·.content)) ++ s.retired }

/-- The restoring itself, after the checks. -/
def restore (snap : Snapshot) : Act RollbackStatus := do
  let s ← Eff.read
  match (if call.backupReadable then s.backups snap.backup else none) with
  | none => Eff.raise .other
  | some content => do
      restoreTarget call content
      markRolled call
      appendAuditEntry call.audit
        { editId := call.proposalId, event := "rolled_back", gateDecision := "rolled_back" }
      pure .rolledBack

def rollbackProposal : Act RollbackStatus := do
  if !call.enabled then pure .disabled
  else do
    let s ← Eff.read
    if s.rolled call.proposalId then pure .rolledBack
    else
      match s.snapshots call.proposalId with
      | none => pure .missing
      | some snap =>
          -- an audit failure is a `RuntimeError` and goes through
          Eff.handle (fun fault => !isAuditFault fault)
            (if !call.snapshotReadable then Eff.raise .other
              else if call.maxAttempts ≤ snap.rollbackAttempts then pure .error
              else if rollbackWindow < call.now - snap.promotionTs then pure .windowExpired
              else restore call snap)
            fun _ => do
              countAttempt call
              pure .error

end

end TrwMcp.MetaTune
