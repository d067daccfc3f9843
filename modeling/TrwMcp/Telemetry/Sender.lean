import TrwMcp.State.Jsonl
import TrwMcp.Telemetry.Pipeline

/-!
# The batch sender

`send` reads the upload queue once, sends the records that were stamped with consent in batches, and
publishes what is left in one go. Clients append to the queue at any moment: they open it, and then
write their record, stamped, to what they have opened.
-/

namespace TrwMcp.Telemetry

open Lib Handoff State

/-! ## Consent -/

abbrev Record := List (String × Json)

def consentField : String := "_trw_consent"

/-- `stamp_consent` -/
def stampConsent (record : Record) (consented : Bool) : Record :=
  Dict.set record consentField (.bool consented)

/-- `_record_consented`: the marker is `True` and nothing else. -/
def recordConsented (record : Record) : Bool :=
  match Dict.lookup record consentField with
  | some (.bool true) => true
  | _ => false

/-- `_strip_consent_marker` -/
def stripConsentMarker (record : Record) : Record :=
  record.filter fun member => member.1 ≠ consentField

/-! ## Sending a batch -/

/-- What one POST met: the switch and the consent before it, and the answer; an exception is no
success. -/
structure SendAttempt where
  contact : Bool
  consent : Bool
  accepted : Bool

/-- `_send_batch_to` over its attempts: whether the batch was accepted, and the requests made. -/
@[grind =] def sendBatchTo : List SendAttempt → Bool × Nat
  | [] => (false, 0)
  | attempt :: rest =>
      if !attempt.contact then (false, 0)
      else if !attempt.consent then (false, 0)
      else if attempt.accepted then (true, 1)
      else ((sendBatchTo rest).1, (sendBatchTo rest).2 + 1)

/-- `_send_batch_fanout`: every URL is tried, whatever the others answer. -/
def sendBatchFanout (urls : List String) (maxRetries : Nat) (meets : String → Nat → SendAttempt) :
    Bool × Nat :=
  let answers := urls.map fun url => sendBatchTo ((List.range maxRetries).map (meets url))
  (answers.any (·.1), (answers.map (·.2)).sum)

/-! ## The queue -/

/-- A line of the queue. Its number, and the consent it was appended under, are kept by nothing. -/
structure QueueLine where
  tag : Nat
  row : Loaded Json
  stamp : Option Bool := none

/-- The record of a line; a malformed line and a row that is no object are skipped. -/
def QueueLine.record (line : QueueLine) : Option Record :=
  match line.row with
  | .value (.obj members) => some members
  | _ => none

def QueueLine.consented (line : QueueLine) : Bool := line.record.any recordConsented

structure SenderConfig where
  platformUrls : List String
  batchSize : Nat
  maxRetries : Nat
  platformTelemetryEnabled : Bool

/-- What a `send` returns, with the number of consented records it read. -/
structure SendResult where
  sent : Nat
  failed : Nat
  remaining : Nat
  skippedReason : Option String
  consented : Nat

/-- Where a `send` stands; the lines it read are kept by nothing. -/
inductive SendStage where
  | idle
  | reading
  | sending (read done unsent : List QueueLine) (batches : List (List QueueLine))
      (sent failed : Nat)
  /-- `_rewrite_queue` -/
  | rewriting (read remaining : List QueueLine) (result : SendResult)

/-- The queue, the clients that have it open, and the sender. The lines ever in the queue, the
batches requested, and the numbers of the lines accepted and of those a `send` has read are kept by
nothing. -/
structure SenderWorld (A : Type) where
  files : Files Unit QueueLine := {}
  writers : A → Option (Nat × Record × Bool) := fun _ => none
  stage : SendStage := .idle
  next : Nat := 0
  results : List SendResult := []
  written : List QueueLine := []
  requests : List (List Record) := []
  accepted : List Nat := []
  read : List Nat := []

/-- What the next step of the sender meets. -/
structure SendMeets where
  /-- the queue has an owning project -/
  owned : Bool := true
  /-- that project consents to telemetry -/
  policy : Bool := true
  contact : Bool := true
  /-- the file operation goes through -/
  works : Bool := true
  post : String → Nat → SendAttempt := fun _ _ => ⟨true, true, true⟩

inductive SenderDeed (A : Type) where
  /-- `append_jsonl` of a stamped record opens the queue -/
  | openQueue (a : A) (record : Record) (consented : Bool)
  /-- and writes to what it has opened -/
  | write (a : A)
  | send (meets : SendMeets)
  | act (meets : SendMeets)
  | stop

section

variable {A : Type} [DecidableEq A]

@[grind =] def SenderWorld.queue (w : SenderWorld A) : List QueueLine := (w.files.read ()).getD []

def SenderWorld.skip (w : SenderWorld A) (reason : String) : SenderWorld A :=
  { w with results := w.results ++ [⟨0, 0, 0, some reason, 0⟩] }

/-- `send` up to the reading of the queue. -/
def SenderWorld.send (config : SenderConfig) (w : SenderWorld A) (meets : SendMeets) :
    SenderWorld A :=
  match w.stage with
  | .idle =>
      if !meets.owned then w.skip "no_source_project"
      else if !(config.platformTelemetryEnabled && meets.policy) then
        w.skip "platform_telemetry_disabled"
      else if !meets.contact then w.skip "platform_contact_disabled"
      else if config.platformUrls.isEmpty then w.skip "offline_mode"
      else if (w.files.node ()).isNone then w.skip "no_events"
      else { w with stage := .reading }
  | _ => w

/-- The next step of a `send`. -/
def SenderWorld.act (config : SenderConfig) (w : SenderWorld A) (meets : SendMeets) :
    SenderWorld A :=
  match w.stage with
  | .idle => w
  | .reading =>
      let lines := w.queue
      let eligible := lines.filter QueueLine.consented
      if lines.all fun line => line.record.isNone then
        { w.skip "empty_queue" with stage := .idle }
      else if eligible.isEmpty then
        { w with
            stage := .rewriting lines [] ⟨0, 0, 0, some "no_consented_events", 0⟩
            read := w.read ++ lines.map (·.tag) }
      -- a `range` of step 0 raises
      else if config.batchSize = 0 then { w with stage := .idle }
      else
        { w with
            stage := .sending lines [] [] (slices config.batchSize eligible) 0 0
            read := w.read ++ lines.map (·.tag) }
  | .sending read done unsent (batch :: batches) sent failed =>
      -- the marker is stripped before anything leaves
      let outgoing := (batch.filterMap QueueLine.record).map stripConsentMarker
      let answer := sendBatchFanout config.platformUrls config.maxRetries meets.post
      let requested := { w with requests := w.requests ++ List.replicate answer.2 outgoing }
      if answer.1 then
        { requested with
            stage := .sending read (done ++ batch) unsent batches (sent + batch.length) failed
            accepted := w.accepted ++ batch.map (·.tag) }
      else
        { requested with
            stage := .sending read (done ++ batch) (unsent ++ batch) batches sent
              (failed + batch.length) }
  | .sending read _ unsent [] sent failed =>
      let consented := (read.filter QueueLine.consented).length
      { w with stage := .rewriting read unsent ⟨sent, failed, unsent.length, none, consented⟩ }
  | .rewriting _ remaining result =>
      if meets.works then
        { w with
            files := w.files.publish () remaining
            stage := .idle
            results := w.results ++ [result] }
      else { w with stage := .idle }

/-- One step. -/
def SenderWorld.exec (config : SenderConfig) (w : SenderWorld A) : SenderDeed A → SenderWorld A
  | .openQueue a record consented =>
      match w.writers a with
      | some _ => w
      | none =>
          { w with
              files := w.files.opened ()
              writers := Function.update w.writers a
                (some (w.files.openNode (), stampConsent record consented, consented)) }
  | .write a =>
      match w.writers a with
      | some (node, record, consented) =>
          let line : QueueLine := ⟨w.next, .value (.obj record), some consented⟩
          { w with
              files := w.files.write node [line]
              writers := Function.update w.writers a none
              next := w.next + 1
              written := w.written ++ [line] }
      | none => w
  | .send meets => w.send config meets
  | .act meets => w.act config meets
  | .stop => { w with stage := .idle }

/-- A queue with this content. -/
@[grind =] def SenderWorld.start (rows : List (Loaded Json)) : SenderWorld A :=
  let lines := rows.zipIdx.map fun m => ⟨m.2, m.1, none⟩
  { files := Files.publish {} () lines, next := rows.length, written := lines }

end

end TrwMcp.Telemetry
