import TrwMcp.Handoff.Json
import TrwMcp.Lib.Regex
import TrwMcp.Lib.Run

/-!
# Pulling team learnings

`pull_and_merge`, the one cursor engine, and its drivers: the pull half of a cycle (which a recall
catch-up runs too, page after page) and the full replay. The answers of the server and of the local
store are inputs.
-/

namespace TrwMcp.Sync

open Lib
open Handoff (Json)

/-- A pulled learning is any JSON object. -/
abbrev Learning := Dict String Json

structure Page where
  learnings : List Learning
  nextCompanySeq : Int

/-- `failed` is any failure of the request or of the payload's validation. -/
inductive Response where
  | failed
  | notModified
  | page (p : Page)

/-! ## The merge of a page -/

inductive Verdict where
  | inserted
  | merged
  | unchanged
  | skippedNoId
  | invalid
  | quarantined
  | blocked
  | failed
deriving DecidableEq

/-- What reading the local row and `_merge_pulled` come to: an exception, a verdict with nothing to
write, or a row to write and whether this host held one. -/
inductive Plan where
  | raised
  | nothing (v : Verdict)
  | write (existing : Bool)

structure Row where
  learning : Learning
  existing : Bool

/-- The answers of the local store during one merge; `none` is an exception. -/
structure StoreAnswers where
  opens : Bool
  plan : Learning → Plan
  batch : Nat → Option (List String)
  reread : Learning → Nat → Plan
  apply : Learning → Nat → Option String
  conflictAttempts : Nat

def applyChunk : Nat := 200

/-- The page's rows, `applyChunk` to a call; `fuel` bounds the number of calls. -/
@[grind =] def chunks : Nat → List Row → List (List Row)
  | 0, _ => []
  | fuel + 1, rows =>
      if rows.isEmpty then [] else rows.take applyChunk :: chunks fuel (rows.drop applyChunk)

/-- `str(raw.get("source_learning_id", "")).strip()` is empty. -/
def lacksSourceId (raw : Learning) : Bool :=
  match Dict.lookup raw "source_learning_id" with
  | none => true
  | some (.str s) => s.toList.all Regex.isSpace
  | some _ => false

/-- `_book` -/
def book (status : String) (existing : Bool) : Verdict :=
  if status = "stored" then if existing then .merged else .inserted
  else if status = "quarantined" then .quarantined
  else if status = "blocked" then .blocked
  else .failed

/-- `_apply_alone`: `attempts` are left, `attempt` is the next. -/
@[grind =] def applyAlone (answers : StoreAnswers) (raw : Learning) :
    Nat → Nat → Bool → String → Verdict
  | 0, _, existing, status => book status existing
  | attempts + 1, attempt, existing, _ =>
      match if attempt = 0 then Plan.write existing else answers.reread raw attempt with
      | .raised => .failed
      | .nothing v => v
      | .write existing =>
          match answers.apply raw attempt with
          | none => .failed
          | some status =>
              if status ≠ "conflict" then book status existing
              else applyAlone answers raw attempts (attempt + 1) existing status

/-- `_apply_batched`: the rows with a status each, or without one where the call failed. -/
@[grind =] def applyBatched (answers : StoreAnswers) : Nat → List (List Row) → List (Row × Option String)
  | _, [] => []
  | i, chunk :: rest =>
      match answers.batch i with
      | none => (chunk :: rest).flatten.map fun row => (row, none)
      | some statuses =>
          if statuses.length = chunk.length then
            (chunk.zip statuses).map (fun p => (p.1, some p.2)) ++ applyBatched answers (i + 1) rest
          else (chunk :: rest).flatten.map fun row => (row, none)

def rowVerdict (answers : StoreAnswers) (row : Row) (status : Option String) : Verdict :=
  match status with
  | none => applyAlone answers row.learning answers.conflictAttempts 0 row.existing ""
  | some status =>
      if status ≠ "conflict" then book status row.existing
      else applyAlone answers row.learning (answers.conflictAttempts - 1) 1 row.existing ""

/-- The verdict of a learning that is not written, or its row. -/
def planRow (answers : StoreAnswers) (raw : Learning) : Verdict ⊕ Row :=
  if lacksSourceId raw then .inl .skippedNoId
  else
    match answers.plan raw with
    | .raised => .inl .failed
    | .nothing v => .inl v
    | .write existing => .inr ⟨raw, existing⟩

/-- Every learning of the page with its verdict; the counts of `merge_page` count them. -/
def mergePage (answers : StoreAnswers) (learnings : List Learning) : List (Learning × Verdict) :=
  let counted := learnings.filterMap fun raw => (planRow answers raw).getLeft?.map fun v => (raw, v)
  let rows := learnings.filterMap fun raw => (planRow answers raw).getRight?
  counted ++ (applyBatched answers 0 (chunks rows.length rows)).map fun p =>
    (p.1.learning, rowVerdict answers p.1 p.2)

structure TeamMergeResult where
  verdicts : List (Learning × Verdict) := []
  unavailable : Bool := false

def TeamMergeResult.count (r : TeamMergeResult) (v : Verdict) : Nat :=
  (r.verdicts.filter fun p => p.2 = v).length

def TeamMergeResult.applied (r : TeamMergeResult) : Nat := r.count .inserted + r.count .merged

/-- `hasDir` is whether the puller has a `.trw`. -/
def mergeTeamLearnings (hasDir : Bool) (answers : StoreAnswers) (learnings : List Learning) :
    TeamMergeResult :=
  if !hasDir then { unavailable := true }
  else if learnings.isEmpty then {}
  else if !answers.opens then { unavailable := true }
  else { verdicts := mergePage answers learnings }

/-! ## One page -/

/-- `int()` of a float's and of a string's text. -/
structure IntOf where
  float : String → Option Int
  text : String → Option Int

def IntOf.value (intOf : IntOf) : Json → Option Int
  | .null => none
  | .bool b => some (if b then 1 else 0)
  | .int n => some n
  | .float text => intOf.float text
  | .str s => intOf.text s
  | .arr _ => none
  | .obj _ => none

/-- `_is_company_entry` -/
def isCompanyEntry (item : Learning) : Bool :=
  match Dict.lookup item "metadata" with
  | some (.obj members) =>
      match Dict.lookup members "source" with
      | some (.str source) => source = "company_sync"
      | _ => false
  | _ => false

/-- `int(item.get("sync_seq", 0))` -/
def itemSeq (intOf : IntOf) (item : Learning) : Option Int :=
  match Dict.lookup item "sync_seq" with
  | none => some 0
  | some value => intOf.value value

/-- One request and the merge of what it brings. -/
structure Attempt where
  response : Response
  answers : StoreAnswers

structure PullStep where
  result : Response
  merge : TeamMergeResult
  pulled : Nat
  nextPullSeq : Int
  cursorMayAdvance : Bool

structure Config where
  teamSyncEnabled : Bool
  hasDir : Bool

def mergeOf (config : Config) (answers : StoreAnswers) (p : Page) : TeamMergeResult :=
  if config.teamSyncEnabled then mergeTeamLearnings config.hasDir answers p.learnings else {}

def mayAdvance (config : Config) (r : TeamMergeResult) : Bool :=
  config.teamSyncEnabled && !r.unavailable && r.count .failed == 0

/-- The sequence numbers the cursor is raised over. -/
def orgSeqs (intOf : IntOf) (p : Page) : Option (List Int) :=
  (p.learnings.filter fun item => !isCompanyEntry item).mapM (itemSeq intOf)

def pullAndMerge (intOf : IntOf) (config : Config) (pullSeq : Int) (a : Attempt) :
    Except String PullStep :=
  match a.response with
  | .page p =>
      let merge := mergeOf config a.answers p
      if mayAdvance config merge then
        match orgSeqs intOf p with
        | none => .error "int() argument"
        | some seqs =>
            .ok ⟨.page p, merge, p.learnings.length, seqs.foldl max pullSeq, true⟩
      else .ok ⟨.page p, merge, p.learnings.length, pullSeq, false⟩
  | response => .ok ⟨response, {}, 0, pullSeq, false⟩

/-! ## The drivers -/

structure ReplayBlock where
  nextSeq : Int
  companySeq : Int
  pages : Nat
deriving DecidableEq

/-- The cursors in `sync-state.json`. -/
structure Cursors where
  lastPullSeq : Int
  lastCompanyPullSeq : Int
  replay : Option ReplayBlock
deriving DecidableEq

def Cursors.recordPullSeq (c : Cursors) (seq : Int) : Cursors :=
  { c with lastPullSeq := max c.lastPullSeq seq }

def Cursors.recordCompanyPullSeq (c : Cursors) (seq : Int) : Cursors :=
  { c with lastCompanyPullSeq := max c.lastCompanyPullSeq seq }

def Cursors.recordReplayPage (c : Cursors) (seq companySeq : Int) (pages : Nat) : Cursors where
  lastPullSeq := max c.lastPullSeq seq
  lastCompanyPullSeq := max c.lastCompanyPullSeq companySeq
  replay := some ⟨seq, companySeq, pages⟩

/-- The pull half of `run_one_cycle`. `stopped` is an exception or a kill after the company cursor
was recorded; `push` is whether the cycle pushes. -/
structure CycleCall where
  config : Config
  attempt : Attempt
  push : Bool
  stopped : Bool

def runCycle (intOf : IntOf) (call : CycleCall) (c : Cursors) : Cursors :=
  match pullAndMerge intOf call.config c.lastPullSeq call.attempt with
  | .error _ => c
  | .ok step =>
      match step.result with
      | .failed => c
      | .notModified => if call.stopped then c else c.recordPullSeq c.lastPullSeq
      | .page p =>
          let company := if step.cursorMayAdvance then
            c.recordCompanyPullSeq (max c.lastCompanyPullSeq p.nextCompanySeq) else c
          if call.stopped || (!call.push && step.pulled ≠ 0 && !step.cursorMayAdvance) then company
          else company.recordPullSeq step.nextPullSeq

/-- The page was merged and judged, or there was nothing in it. -/
def stepJudged (step : PullStep) : Bool :=
  match step.result with
  | .failed => false
  | _ => step.cursorMayAdvance || step.pulled == 0

def nextCompany (companySeq : Int) (step : PullStep) : Int :=
  match step.result with
  | .failed => companySeq
  | .notModified => max companySeq 0
  | .page p => max companySeq p.nextCompanySeq

/-- The attempts at one page: the first judged one, or the last; none when one raised. -/
@[grind =] def pageStep (intOf : IntOf) (config : Config) (seq : Int) : List Attempt → Option PullStep
  | [] => none
  | [a] => (pullAndMerge intOf config seq a).toOption
  | a :: rest =>
      match pullAndMerge intOf config seq a with
      | .error _ => none
      | .ok step => if stepJudged step then some step else pageStep intOf config seq rest

/-- The loop of `run_full_pull` over its pages, each with its attempts. -/
@[grind =] def replayPages (intOf : IntOf) (config : Config) :
    List (List Attempt) → ReplayBlock → Cursors → Cursors
  | [], _, c => c
  | attempts :: rest, block, c =>
      match pageStep intOf config block.nextSeq attempts with
      | none => c
      | some step =>
          let moved := step.nextPullSeq > block.nextSeq ∨
            nextCompany block.companySeq step > block.companySeq
          if !stepJudged step then c
          else if step.pulled = 0 ∨ ¬ moved then { c with replay := none }
          else
            let block' : ReplayBlock :=
              ⟨step.nextPullSeq, nextCompany block.companySeq step, block.pages + 1⟩
            replayPages intOf config rest block'
              (c.recordReplayPage block'.nextSeq block'.companySeq block'.pages)

/-- `run_full_pull`; `pages` ends where the run is paused, killed or fails. -/
structure ReplayCall where
  config : Config
  resume : Bool
  pages : List (List Attempt)

def runFullPull (intOf : IntOf) (call : ReplayCall) (c : Cursors) : Cursors :=
  if c.replay.isSome && !call.resume then c
  else
    let block := c.replay.getD ⟨0, 0, 0⟩
    replayPages intOf call.config call.pages block
      (c.recordReplayPage block.nextSeq block.companySeq block.pages)

end TrwMcp.Sync
