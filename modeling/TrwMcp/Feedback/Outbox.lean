import TrwMcp.Lib.Dict
import TrwMcp.Lib.Run

/-!
# The feedback outbox

A record is a file, and its name says its state: pending, claimed under a nonce, or sent. A sender
takes a record by a rename, and settles it by writing one file and deleting or renaming another; a
claim that is too old is put back by whoever finds it so. Any of these can stop, or fail, between
two of its steps.
-/

namespace TrwMcp.Feedback

open Lib

/-- The names under `feedback`, by the stem of the record. -/
inductive OutboxName where
  | pending (id : String)
  | claimed (id : String) (nonce : Nat)
  | sent (id : String)
  deriving DecidableEq

/-- The record a name in `outbox` carries. -/
def OutboxName.stem : OutboxName → Option String
  | .pending id | .claimed id _ => some id
  | .sent _ => none

/-- A record; `none` where it has no `submission_id`. -/
structure Report where
  attempts : Nat := 0
  lastError : String := ""
  payload : String
  submissionId : Option String := none
  deriving DecidableEq

/-- A record and the modification time of its file, in seconds. -/
structure Entry where
  report : Report
  mtime : Nat
  deriving DecidableEq

abbrev Folder := Dict OutboxName Entry

/-- `STALE_CLAIM`, in seconds. -/
def staleClaim : Nat := 15 * 60

def sentKeep : Nat := 200

def unknownId : String := "unknown-id"

/-- `unlink(missing_ok=True)` -/
def Folder.unlink (folder : Folder) (name : OutboxName) : Folder :=
  folder.filter fun m => m.1 ≠ name

/-- `os.rename`, which replaces what has the new name; nothing is the `OSError`. -/
def Folder.rename (folder : Folder) (name name' : OutboxName) : Option Folder :=
  (Dict.lookup folder name).map fun entry => Dict.set (folder.unlink name) name' entry

/-- The stems of `sent`, sorted. -/
def Folder.sentIds (folder : Folder) : List String :=
  (folder.filterMap fun m => match m.1 with | .sent id => some id | _ => none).insertionSort (· ≤ ·)

/-- The claims that are listed in `outbox`. -/
def Folder.claims (folder : Folder) : List (String × Nat) :=
  folder.filterMap fun m => match m.1 with | .claimed id nonce => some (id, nonce) | _ => none

/-- What a send came to. -/
structure SendOutcome where
  success : Bool
  submissionId : String
  error : String
  statusCode : Nat
  deriving DecidableEq

/-- The record with the attempt counted, as a failure leaves it. -/
def Report.failed (report : Report) (outcome : SendOutcome) : Report :=
  { report with
      attempts := report.attempts + 1
      lastError := if outcome.statusCode ≠ 0 then "HTTP " ++ toString outcome.statusCode
        else String.ofList (outcome.error.toList.takeWhile (· ≠ ':')) }

/-- The record with its submission. -/
def Report.delivered (report : Report) (outcome : SendOutcome) : Report :=
  { report with
      attempts := report.attempts + 1
      lastError := ""
      submissionId := some (if outcome.submissionId = "" then unknownId else outcome.submissionId) }

/-- Where a sender stands. -/
inductive SenderStage where
  /-- a claim has renamed the record -/
  | renamed (id : String) (nonce : Nat)
  /-- and stamped it -/
  | stamped (id : String) (nonce : Nat) (since : Nat)
  /-- the sender may send the record, claimed at this time -/
  | holding (id : String) (nonce : Nat) (since : Nat)
  /-- the record goes back to pending -/
  | returning (id : String) (nonce : Nat)
  /-- `settle` has read the record -/
  | settling (id : String) (nonce : Nat) (report : Report) (outcome : SendOutcome)
  /-- the copy in `sent` is written -/
  | recorded (id : String) (nonce : Nat)
  /-- it could not be written -/
  | unrecorded (id : String) (nonce : Nat) (report : Report)
  /-- neither could the claim -/
  | dropping (id : String) (nonce : Nat)
  | pruning (todo : List String)
  /-- `release_stale` over the claims that are left -/
  | releasing (cutoff : Nat) (todo : List (String × Nat))
  /-- the claim was found stale -/
  | judged (cutoff : Nat) (id : String) (nonce : Nat) (todo : List (String × Nat))
  deriving DecidableEq

/-- The files, the clock, the nonces drawn and the senders. The records enqueued, the ones whose
submission was durably written, the ones pruned from `sent`, the ones dropped and the ones a claim
returned after their delivery are kept by nothing. -/
structure OutboxWorld (A : Type) where
  folder : Folder := []
  now : Nat := 0
  next : Nat := 0
  stages : A → Option SenderStage := fun _ => none
  enqueued : List String := []
  delivered : List String := []
  pruned : List String := []
  dropped : List String := []
  resent : List String := []

inductive OutboxDeed (A : Type) where
  | tick (seconds : Nat)
  /-- the identifier is the time and a digest; one is used once -/
  | enqueue (a : A) (id payload : String) (works : Bool)
  | claim (a : A) (id : String) (works : Bool)
  | releaseStale (a : A)
  | settle (a : A) (outcome : SendOutcome) (reads : Bool)
  /-- the next step of a sender; its file operation works or fails -/
  | act (a : A) (works : Bool)
  | stop (a : A)

section

variable {A : Type} [DecidableEq A]

def OutboxWorld.find (w : OutboxWorld A) (name : OutboxName) : Option Entry :=
  Dict.lookup w.folder name

def OutboxWorld.setStage (w : OutboxWorld A) (a : A) (stage : Option SenderStage) :
    OutboxWorld A :=
  { w with stages := Function.update w.stages a stage }

/-- `write_text_atomic` -/
def OutboxWorld.put (w : OutboxWorld A) (name : OutboxName) (report : Report) : OutboxWorld A :=
  { w with folder := Dict.set w.folder name ⟨report, w.now⟩ }

/-- `enqueue` -/
def OutboxWorld.enqueue (w : OutboxWorld A) (a : A) (id payload : String) (works : Bool) :
    OutboxWorld A :=
  if (w.stages a).isSome ∨ id ∈ w.enqueued then w
  else if works then
    { w.put (.claimed id w.next) { payload } with
        next := w.next + 1
        enqueued := w.enqueued ++ [id] }.setStage a (some (.holding id w.next w.now))
  else { w with next := w.next + 1 }

/-- `claim` up to its rename. -/
def OutboxWorld.claim (w : OutboxWorld A) (a : A) (id : String) (works : Bool) : OutboxWorld A :=
  if (w.stages a).isSome then w
  else
    match w.folder.rename (.pending id) (.claimed id w.next) with
    | some folder =>
        if works then
          { w with folder, next := w.next + 1 }.setStage a (some (.renamed id w.next))
        else { w with next := w.next + 1 }
    | none => { w with next := w.next + 1 }

/-- `settle` up to the reading of the record. -/
def OutboxWorld.settle (w : OutboxWorld A) (a : A) (outcome : SendOutcome) (reads : Bool) :
    OutboxWorld A :=
  match w.stages a with
  | some (.holding id nonce _) =>
      match w.find (.claimed id nonce) with
      | some entry =>
          if reads then w.setStage a (some (.settling id nonce entry.report outcome))
          else w.setStage a none
      | none => w.setStage a none
  | _ => w

/-- The next step of a sender. -/
def OutboxWorld.act (w : OutboxWorld A) (a : A) (works : Bool) : SenderStage → OutboxWorld A
  | .renamed id nonce =>
      -- `os.utime`
      match w.find (.claimed id nonce) with
      | some entry =>
          if works then
            (w.put (.claimed id nonce) entry.report).setStage a (some (.stamped id nonce w.now))
          else w.setStage a none
      | none => w.setStage a none
  | .stamped id nonce since =>
      match w.find (.claimed id nonce) with
      | some entry =>
          if !works then w.setStage a none
          else if entry.report.submissionId.isSome then w.setStage a (some (.returning id nonce))
          else
            { w with
                resent := if id ∈ w.delivered then w.resent ++ [id] else w.resent }.setStage a
              (some (.holding id nonce since))
      | none => w.setStage a none
  -- only `settle` leads on
  | .holding _ _ _ => w
  | .returning id nonce =>
      match w.folder.rename (.claimed id nonce) (.pending id) with
      | some folder =>
          if works then { w with folder }.setStage a none else w.setStage a none
      | none => w.setStage a none
  | .settling id nonce report outcome =>
      if outcome.success then
        if works then
          { w.put (.sent id) (report.delivered outcome) with
              delivered := w.delivered ++ [id] }.setStage a (some (.recorded id nonce))
        else w.setStage a (some (.unrecorded id nonce (report.delivered outcome)))
      else if works then
        (w.put (.claimed id nonce) (report.failed outcome)).setStage a (some (.returning id nonce))
      else w.setStage a none
  | .recorded id nonce =>
      let folder := w.folder.unlink (.claimed id nonce)
      let sentIds := folder.sentIds
      { w with folder }.setStage a (some (.pruning (sentIds.take (sentIds.length - sentKeep))))
  | .unrecorded id nonce report =>
      if works then
        { w.put (.claimed id nonce) report with delivered := w.delivered ++ [id] }.setStage a
          (some (.returning id nonce))
      else w.setStage a (some (.dropping id nonce))
  | .dropping id nonce =>
      -- a path outside the project is never deleted through
      if works then
        { w with
            folder := w.folder.unlink (.claimed id nonce)
            dropped := w.dropped ++ [id] }.setStage a none
      else w.setStage a none
  | .pruning [] => w.setStage a none
  | .pruning (id :: todo) =>
      { w with folder := w.folder.unlink (.sent id), pruned := w.pruned ++ [id] }.setStage a
        (some (.pruning todo))
  | .releasing _ [] => w.setStage a none
  | .releasing cutoff ((id, nonce) :: todo) =>
      match w.find (.claimed id nonce) with
      | some entry =>
          w.setStage a (some
            (if entry.mtime < cutoff then .judged cutoff id nonce todo else .releasing cutoff todo))
      | none => w.setStage a (some (.releasing cutoff todo))
  | .judged cutoff id nonce todo =>
      match w.folder.rename (.claimed id nonce) (.pending id) with
      | some folder =>
          if works then { w with folder }.setStage a (some (.releasing cutoff todo))
          else w.setStage a (some (.releasing cutoff todo))
      | none => w.setStage a (some (.releasing cutoff todo))

/-- One step. -/
def OutboxWorld.exec (w : OutboxWorld A) : OutboxDeed A → OutboxWorld A
  | .tick seconds => { w with now := w.now + seconds }
  | .enqueue a id payload works => w.enqueue a id payload works
  | .claim a id works => w.claim a id works
  | .releaseStale a =>
      if (w.stages a).isSome then w
      else w.setStage a (some (.releasing (w.now - staleClaim) w.folder.claims))
  | .settle a outcome reads => w.settle a outcome reads
  | .act a works =>
      match w.stages a with
      | some stage => w.act a works stage
      | none => w
  | .stop a => w.setStage a none

end

end TrwMcp.Feedback
