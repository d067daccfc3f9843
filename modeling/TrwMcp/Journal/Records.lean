import TrwMcp.Lib.Run

/-!
# Learn-journal records

The files of one journaled learning, and everyone who writes or removes them: the call that
journaled it and any number of drains, each in single file-system steps. A file is an inode under a
name, since the two writers of one target share the name of their temp file.

A learning is lost when the dead-letter copy that replaces it was made from a failed read, and comes
back when the attempt count is written after the record was consumed.
-/

namespace TrwMcp.Journal

open Lib

/-- What `dead_letter` adds to the record; the time is left out. -/
structure DeadLetterNote where
  reason : String
  status : String
  error : String
  attempts : Nat
deriving DecidableEq

/-- A record; `payload` is absent in the record `dead_letter` makes of a failed read. -/
structure JournalRecord (V : Type) where
  payload : Option V
  attempts : Nat := 0
  deadLetter : Option DeadLetterNote := none
deriving DecidableEq

inductive FileName where
  | pending
  | pendingTmp
  | deadLetter
  | deadLetterTmp
deriving DecidableEq

/-- How a replay ended: with the status of `execute_learn`, or with an exception, which may be one
of `DETERMINISTIC_EXCEPTIONS`. -/
inductive ReplayEnd where
  | returned (status : String)
  | raised (typeName : String) (text : String) (deterministic : Bool)
deriving DecidableEq

def ReplayEnd.status : ReplayEnd → String
  | .returned status => status
  | .raised _ _ _ => ""

def ReplayEnd.error : ReplayEnd → String
  | .returned _ => ""
  | .raised typeName text _ => typeName ++ ": " ++ text

inductive Disposition where
  | recovered
  | deadLettered (reason : String)
  | retained (reason : String)
deriving DecidableEq

def rateLimited : String := "rate_limited"

/-- `DETERMINISTIC_STATUSES` -/
def deterministicStatuses : List String := ["rejected", "invalid"]

def classifyReplay (consumed : Bool) (out : ReplayEnd) (attempt : Nat) (maxAttempts : Int) :
    Disposition :=
  let budget : Disposition :=
    if 0 < maxAttempts ∧ maxAttempts ≤ attempt then
      .deadLettered ("retry_budget_exhausted:" ++ toString attempt)
    else .retained ""
  if consumed then .recovered
  else
    match out with
    | .raised typeName _ true => .deadLettered ("deterministic_error:" ++ typeName)
    | .raised _ _ false => budget
    | .returned status =>
        if status ∈ deterministicStatuses then
          .deadLettered ("deterministic_rejection:" ++ status)
        else if status = rateLimited then .retained rateLimited
        else budget

/-- A `write_record_atomic` under way: the attempt count, or the dead-letter copy. A drain whose
dead-letter move fails books the attempt instead. -/
inductive WriteJob (V : Type) where
  | attempt (record : JournalRecord V)
  | deadLetter (record : JournalRecord V) (fallback : Option (JournalRecord V))
deriving DecidableEq

def WriteJob.record {V : Type} : WriteJob V → JournalRecord V
  | .attempt record => record
  | .deadLetter record _ => record

def WriteJob.target {V : Type} : WriteJob V → FileName
  | .attempt _ => .pending
  | .deadLetter _ _ => .deadLetter

/-- `target.with_suffix(".json.tmp")` -/
def WriteJob.tmp {V : Type} : WriteJob V → FileName
  | .attempt _ => .pendingTmp
  | .deadLetter _ _ => .deadLetterTmp

/-- Where a party stands. The call that journaled the record starts in `pipeline`, a drain in
`idle`. -/
inductive Stand (V : Type) where
  | idle
  | pipeline
  | snapshot (record : JournalRecord V)
  | replaying (record : JournalRecord V)
  | confirmed (after : Option (JournalRecord V × ReplayEnd))
  | testing (record : JournalRecord V) (out : ReplayEnd)
  | rereading (note : DeadLetterNote) (fallback : Option (JournalRecord V))
  | opening (job : WriteJob V)
  | filling (job : WriteJob V) (inode : Nat)
  | replacing (job : WriteJob V) (inode : Nat)
  | unlinking (fallback : Option (JournalRecord V))
deriving DecidableEq

/-- The names, the inodes and the parties. `settled` and `consumed` are not in the files: a party
has confirmed a terminal outcome, a party has unlinked the record after one. -/
structure Files (A V : Type) where
  names : FileName → Option Nat
  disk : Nat → Option (JournalRecord V)
  next : Nat
  stands : A → Stand V
  settled : Bool := false
  consumed : Bool := false

/-- What the pipeline of `execute_learn` comes to: the learning was stored, deduped or quarantined;
the store refused it; or nothing was decided. -/
inductive Outcome where
  | handled (out : ReplayEnd)
  | rejected (reason : String)
  | retained (out : ReplayEnd)

/-- The steps; a flag says what the file system answers. -/
inductive Deed where
  | finish (outcome : Outcome)
  | snap (readable : Bool)
  | enter (granted : Bool)
  | consume (ok : Bool)
  | test
  | reread (readable : Bool)
  | «open» (ok : Bool)
  | fill (ok : Bool)
  | replace (ok : Bool)
  | unlink (ok : Bool)
  | crash

section

variable {A V : Type} [DecidableEq A]

def Files.content (w : Files A V) (n : FileName) : Option (JournalRecord V) :=
  (w.names n).bind w.disk

def Files.put (w : Files A V) (a : A) (stand : Stand V) : Files A V :=
  { w with stands := Function.update w.stands a stand }

def Files.unlink (w : Files A V) (n : FileName) : Files A V :=
  { w with names := Function.update w.names n none }

/-- `os.open(tmp, O_CREAT | O_TRUNC)`: an existing file keeps its inode and loses its content. -/
def Files.truncate (w : Files A V) (n : FileName) : Files A V × Nat :=
  match w.names n with
  | some inode => ({ w with disk := Function.update w.disk inode none }, inode)
  | none =>
      ({ w with
          names := Function.update w.names n (some w.next)
          disk := Function.update w.disk w.next none
          next := w.next + 1 }, w.next)

/-- `os.replace` -/
def Files.rename (w : Files A V) (src dst : FileName) (inode : Nat) : Files A V :=
  { w with names := Function.update (Function.update w.names src none) dst (some inode) }

/-- After a write that did not land. -/
def WriteJob.failed : WriteJob V → Stand V
  | .attempt _ => .idle
  | .deadLetter _ none => .idle
  | .deadLetter _ (some record) => .opening (.attempt record)

/-- After a write that landed. -/
def WriteJob.landed : WriteJob V → Stand V
  | .attempt _ => .idle
  | .deadLetter _ fallback => .unlinking fallback

/-- The record a dead-letter copy is made of, every field masked. -/
def deadLetterRecord (mask : V → V) (read : Option (JournalRecord V)) (note : DeadLetterNote) :
    JournalRecord V :=
  match read with
  | some record => ⟨record.payload.map mask, record.attempts, some note⟩
  -- `read_record(path) or {}`
  | none => ⟨none, 0, some note⟩

/-- What the drain does after the existence test. -/
def disposed (maxAttempts : Int) (exists_ : Bool) (record : JournalRecord V) (out : ReplayEnd) :
    Stand V :=
  let attempt := record.attempts + 1
  let booked := { record with attempts := attempt }
  match classifyReplay (!exists_) out attempt maxAttempts with
  | .recovered => .idle
  | .deadLettered reason => .rereading ⟨reason, out.status, out.error, attempt⟩ (some booked)
  | .retained reason => if reason = rateLimited then .idle else .opening (.attempt booked)

def act (mask : V → V) (maxAttempts : Int) (w : Files A V) (a : A) : Deed → Option (Files A V)
  | .finish outcome =>
      match w.stands a, outcome with
      | .pipeline, .handled _ => some { (w.put a (.confirmed none)) with settled := true }
      | .pipeline, .rejected reason =>
          some (w.put a (.rereading ⟨"deterministic_rejection:store", "rejected", reason, 1⟩ none))
      | .pipeline, .retained _ => some (w.put a .idle)
      | .replaying record, .handled out =>
          some { (w.put a (.confirmed (some (record, out)))) with settled := true }
      | .replaying record, .rejected _ => some (w.put a (.testing record (.returned "rejected")))
      | .replaying record, .retained out => some (w.put a (.testing record out))
      | _, _ => none
  | .snap readable =>
      match w.stands a, w.content .pending with
      | .idle, some record =>
          -- a record without a payload is malformed and skipped
          if readable ∧ record.payload.isSome then some (w.put a (.snapshot record)) else some w
      | _, _ => none
  | .enter granted =>
      match w.stands a with
      | .snapshot record =>
          if granted ∧ (w.names .pending).isSome then some (w.put a (.replaying record))
          else some (w.put a .idle)
      | _ => none
  | .consume ok =>
      match w.stands a with
      | .confirmed after =>
          let w := if ok then { (w.unlink .pending) with consumed := true } else w
          some (w.put a (match after with
            | none => .idle
            | some (record, out) => .testing record out))
      | _ => none
  | .test =>
      match w.stands a with
      | .testing record out =>
          some (w.put a (disposed maxAttempts (w.names .pending).isSome record out))
      | _ => none
  | .reread readable =>
      match w.stands a with
      | .rereading note fallback =>
          let read := if readable then w.content .pending else none
          some (w.put a (.opening (.deadLetter (deadLetterRecord mask read note) fallback)))
      | _ => none
  | .open ok =>
      match w.stands a with
      | .opening job =>
          if ok then
            let (w, inode) := w.truncate job.tmp
            some (w.put a (.filling job inode))
          else some (w.put a job.failed)
      | _ => none
  | .fill ok =>
      match w.stands a with
      | .filling job inode =>
          if ok then
            some { (w.put a (.replacing job inode)) with
              disk := Function.update w.disk inode (some job.record) }
          else some (w.put a job.failed)
      | _ => none
  | .replace ok =>
      match w.stands a with
      | .replacing job _ =>
          match ok, w.names job.tmp with
          | true, some inode => some ((w.rename job.tmp job.target inode).put a job.landed)
          | _, _ => some (w.put a job.failed)
      | _ => none
  | .unlink ok =>
      match w.stands a with
      | .unlinking fallback =>
          if ok then some ((w.unlink .pending).put a .idle)
          else some (w.put a (match fallback with
            | none => .idle
            | some record => .opening (.attempt record)))
      | _ => none
  -- a crash stops the party for good; whoever starts anew is another party
  | .crash => some (w.put a .idle)

end

end TrwMcp.Journal
