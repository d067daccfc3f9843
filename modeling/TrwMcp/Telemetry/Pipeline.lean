import TrwMcp.Lib.Files
import TrwMcp.Lib.Run

/-!
# The telemetry pipeline

Each process has a queue. A flush takes all of it, writes every event to the buffer of the `.trw` it
was produced under, and then sends the groups, one after the other, in batches; a group that was
sent whole empties its buffer. Any number of flushes, of any number of processes, go on at once, and
a maintenance moves a buffer away under another name.
-/

namespace TrwMcp.Telemetry

open Lib

/-! ## Sending a batch -/

/-- What one POST met: the switches of all roots before it, and the answer. -/
structure Attempt where
  contact : Bool
  accepted : Bool

/-- `_send_batch` over its attempts, URL by URL: whether the batch was accepted, and the number of
requests made. -/
@[grind =] def sendBatch : List Attempt → Bool × Nat
  | [] => (false, 0)
  | attempt :: rest =>
      if !attempt.contact then (false, 0)
      else if attempt.accepted then (true, 1)
      else ((sendBatch rest).1, (sendBatch rest).2 + 1)

/-- Every URL in turn, `max_retries` times each. -/
def attempts (urls : List String) (maxRetries : Nat) (meets : String → Nat → Attempt) :
    List Attempt :=
  urls.flatMap fun url => (List.range maxRetries).map (meets url)

/-- The policy a group is sent under: whether its buffer has an owner, and the flags of the
configuration and of both roots together. -/
structure Policy where
  owned : Bool
  platformTelemetry : Bool
  contact : Bool

/-- Why a group is not sent at all. -/
def Policy.skipped (policy : Policy) (urls : List String) : Option String :=
  if !policy.owned then some "no_source_project"
  else if !policy.platformTelemetry then some "platform_telemetry_disabled"
  else if !policy.contact then some "platform_contact_disabled"
  else if urls.isEmpty then some "offline_mode"
  else none

/-- `range(0, len(events), batch_size)` as slices. -/
def slices {E : Type} (batchSize : Nat) (events : List E) : List (List E) :=
  if _h : batchSize = 0 ∨ events = [] then []
  else events.take batchSize :: slices batchSize (events.drop batchSize)
termination_by events.length
decreasing_by
  have hlength : 0 < events.length := List.length_pos_of_ne_nil (by tauto)
  simp only [List.length_drop]
  omega

/-! ## Groups -/

section

variable {S E : Type} [DecidableEq S]

/-- `groups.setdefault(source, []).append(event)` -/
@[grind =] def addToGroup : List (S × List E) → S → E → List (S × List E)
  | [], source, event => [(source, [event])]
  | (s, group) :: groups, source, event =>
      if s = source then (s, group ++ [event]) :: groups
      else (s, group) :: addToGroup groups source event

/-- The groups of the events with a stamp; the stamp is popped. -/
def groupEvents (events : List (Option S × E)) : List (S × List E) :=
  events.foldl
    (fun groups event =>
      match event.1 with
      | some source => addToGroup groups source event.2
      | none => groups)
    []

/-- The events without a stamp: no project, so they are dropped. -/
def unstamped (events : List (Option S × E)) : List E :=
  (events.filter fun event => event.1.isNone).map (·.2)

end

/-! ## Flushes -/

/-- The names in `logs`: the buffer of a project, and what it was rotated into. -/
inductive LogName (S : Type) where
  | buffer (source : S)
  | segment (source : S) (index : Nat)
  deriving DecidableEq

/-- A group that is being sent. -/
structure Sending (S E : Type) where
  source : S
  group : List E
  batches : List (List E)
  sent : Nat := 0
  failed : Nat := 0
  allSent : Bool := true

/-- Where a flush stands. -/
inductive FlushStage (S E : Type) where
  | buffering (todo : List (S × E))
  /-- the buffer is open for this event -/
  | writing (todo : List (S × E)) (node : Nat) (event : E)
  | configuring
  | grouping (todo : List (S × List E))
  | sending (group : Sending S E) (todo : List (S × List E))
  /-- the group was sent, and its buffer is to be emptied -/
  | emptying (source : S) (group : List E) (todo : List (S × List E))
  /-- it is open -/
  | truncating (source : S) (group : List E) (node : Nat) (todo : List (S × List E))
  | done

/-- What a flush has counted so far; which events it counted is kept by nothing. -/
structure Flush (S E : Type) where
  events : List (Option S × E)
  stage : FlushStage S E
  sent : Nat := 0
  failed : Nat := 0
  reasons : List String := []
  countedSent : List E := []
  countedFailed : List E := []

/-- The `skipped_reason` of the result. -/
def Flush.skippedReason {S E : Type} (flush : Flush S E) : String :=
  if 0 < flush.sent then "" else flush.reasons.headD ""

/-- The settings the flushes find. -/
structure PipelineConfig where
  batchSize : Nat
  maxRetries : Nat
  maxQueueSize : Nat

/-- The queues, the logs and the flushes. What was queued, what was written to a buffer, what a
backend has answered with success and the batches requested, with the group they were sent for,
are kept by nothing. -/
structure PipelineWorld (P A S E : Type) where
  queue : P → List (Option S × E) := fun _ => []
  overflow : P → Nat := fun _ => 0
  files : Files (LogName S) E := {}
  flushes : A → Option (P × Flush S E) := fun _ => none
  queued : List (Option S × E) := []
  written : List E := []
  accepted : List E := []
  requests : List (S × List E) := []

/-- What the next step of a flush meets. -/
structure Meets where
  /-- the file operation goes through -/
  works : Bool := true
  configured : Bool := true
  urls : List String := []
  policy : Policy := ⟨true, true, true⟩
  post : String → Nat → Attempt := fun _ _ => ⟨true, true⟩

inductive PipelineDeed (P A S E : Type) where
  | enqueue (p : P) (source : Option S) (event : E)
  | flushNow (a : A) (p : P)
  | act (a : A) (meets : Meets)
  /-- a flush raises, or its process ends -/
  | die (a : A)
  /-- a rotation moves the buffer away, and makes an empty one -/
  | rotate (source : S) (index : Nat)

section

variable {P A S E : Type} [DecidableEq P] [DecidableEq A] [DecidableEq S]

/-- `append` to a deque with a bound: the oldest goes. -/
def pushBounded (bound : Nat) (queue : List (Option S × E)) (event : Option S × E) :
    List (Option S × E) :=
  if queue.length = bound then (queue ++ [event]).tail else queue ++ [event]

def PipelineWorld.enqueue (config : PipelineConfig) (w : PipelineWorld P A S E) (p : P)
    (source : Option S) (event : E) : PipelineWorld P A S E :=
  { w with
      queue := Function.update w.queue p
        (pushBounded config.maxQueueSize (w.queue p) (source, event))
      overflow := if (w.queue p).length = config.maxQueueSize then
          Function.update w.overflow p (w.overflow p + 1) else w.overflow
      queued := w.queued ++ [(source, event)] }

def PipelineWorld.setFlush (w : PipelineWorld P A S E) (a : A) (p : P) (flush : Flush S E) :
    PipelineWorld P A S E :=
  { w with flushes := Function.update w.flushes a (some (p, flush)) }

/-- The queue is swapped under its lock. -/
def PipelineWorld.flushNow (w : PipelineWorld P A S E) (a : A) (p : P) : PipelineWorld P A S E :=
  match w.flushes a with
  | some _ => w
  | none =>
      let events := w.queue p
      let swapped := { w with queue := Function.update w.queue p [] }
      if events.isEmpty then
        swapped.setFlush a p { events, stage := .done, reasons := ["empty_queue"] }
      else
        swapped.setFlush a p
          { events
            stage := .buffering
              ((groupEvents events).flatMap fun group => group.2.map fun event =>
                (group.1, event)) }

/-- The next step of a flush. -/
def PipelineWorld.act (config : PipelineConfig) (w : PipelineWorld P A S E) (a : A) (p : P)
    (flush : Flush S E) (meets : Meets) : PipelineWorld P A S E :=
  match flush.stage with
  | .buffering [] => w.setFlush a p { flush with stage := .configuring }
  | .buffering ((source, event) :: todo) =>
      if meets.works then
        { w with files := w.files.opened (.buffer source) }.setFlush a p
          { flush with stage := .writing todo (w.files.openNode (.buffer source)) event }
      -- one write failure does not block the rest
      else w.setFlush a p { flush with stage := .buffering todo }
  | .writing todo node event =>
      if meets.works then
        { w with files := w.files.write node [event], written := w.written ++ [event] }.setFlush
          a p { flush with stage := .buffering todo }
      else w.setFlush a p { flush with stage := .buffering todo }
  | .configuring =>
      if meets.configured then
        w.setFlush a p
          { flush with
              stage := .grouping (groupEvents flush.events)
              failed := (unstamped flush.events).length
              countedFailed := unstamped flush.events
              reasons := if (groupEvents flush.events).isEmpty then ["no_source_project"] else [] }
      else
        w.setFlush a p
          { flush with
              stage := .done
              failed := flush.events.length
              countedFailed := flush.events.map (·.2)
              reasons := ["config_unavailable"] }
  | .grouping [] => w.setFlush a p { flush with stage := .done }
  | .grouping ((source, group) :: todo) =>
      match meets.policy.skipped meets.urls with
      | some reason =>
          w.setFlush a p
            { flush with stage := .grouping todo, reasons := flush.reasons ++ [reason] }
      -- a `range` of step 0 raises
      | none =>
          if config.batchSize = 0 then { w with flushes := Function.update w.flushes a none }
          else
            w.setFlush a p
              { flush with
                  stage := .sending ⟨source, group, slices config.batchSize group, 0, 0, true⟩
                    todo }
  | .sending s todo =>
      match s.batches with
      | batch :: batches =>
          let answer := sendBatch (attempts meets.urls config.maxRetries meets.post)
          let requested :=
            { w with requests := w.requests ++ List.replicate answer.2 (s.source, batch) }
          if answer.1 then
            { requested with accepted := requested.accepted ++ batch }.setFlush a p
              { flush with
                  stage := .sending { s with batches, sent := s.sent + batch.length } todo
                  countedSent := flush.countedSent ++ batch }
          else
            requested.setFlush a p
              { flush with
                  stage := .sending
                    { s with batches, failed := s.failed + batch.length, allSent := false } todo
                  countedFailed := flush.countedFailed ++ batch }
      | [] =>
          w.setFlush a p
            { flush with
                stage := if s.allSent && decide (0 < s.sent) then
                    .emptying s.source s.group todo else .grouping todo
                sent := flush.sent + s.sent
                failed := flush.failed + s.failed }
  | .emptying source group todo =>
      match w.files.node (.buffer source) with
      | some node =>
          w.setFlush a p
            { flush with
                stage := if meets.works then .truncating source group node todo
                  else .grouping todo }
      | none => w.setFlush a p { flush with stage := .grouping todo }
  | .truncating _ _ node todo =>
      if meets.works then
        { w with files := w.files.truncate node }.setFlush a p
          { flush with stage := .grouping todo }
      else w.setFlush a p { flush with stage := .grouping todo }
  | .done => w

/-- One step. -/
def PipelineWorld.exec (config : PipelineConfig) (w : PipelineWorld P A S E) :
    PipelineDeed P A S E → PipelineWorld P A S E
  | .enqueue p source event => w.enqueue config p source event
  | .flushNow a p => w.flushNow a p
  | .act a meets =>
      match w.flushes a with
      | some (p, flush) => w.act config a p flush meets
      | none => w
  | .die a => { w with flushes := Function.update w.flushes a none }
  | .rotate source index =>
      if (w.files.node (.buffer source)).isSome ∧
          w.files.node (.segment source index) = none then
        { w with
            files := (w.files.rename (.buffer source) (.segment source index)).opened
              (.buffer source) }
      else w

end

end TrwMcp.Telemetry
