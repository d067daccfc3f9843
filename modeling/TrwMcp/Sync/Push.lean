import TrwMcp.Lib.Dict
import TrwMcp.Lib.Effect

/-!
# Pushing learnings and outcomes

The push half of a sync cycle: batches of dirty learnings with the recovery from a 422, batches of
outcomes, the fan-out over all targets, and what the cycle acknowledges afterwards. Every question
to the environment (consent, the contact switch, quarantine, a reply) is asked at its own moment.
-/

namespace TrwMcp.Sync

open Lib

structure Entry where
  id : String
  syncSeq : Int
deriving DecidableEq

/-- A pending outcome of a run; `payload` is what a request holds of it. -/
structure PendingOutcome where
  payload : String
  lineNo : Nat
  runDir : Option String
  syncHash : String
  runId : String
deriving DecidableEq

/-! ## The environment -/

/-- Where one detail of a 422 points: an entry by its index, a field of the request, or nowhere. -/
inductive Loc where
  | entry (index : Int) (field : String)
  | request
  | nowhere

structure Detail where
  loc : Loc
  msg : String

/-- `raised` is a transport failure or an unreadable success, `unreadable` an error body whose
details cannot be taken apart. -/
inductive Reply where
  | raised
  | ok (errors inserted updated skipped : Int)
  | refused (status : Nat) (reason : String)
  | unprocessable (details : List Detail) (reason : String)
  | unreadable

@[grind =] def Reply.success : Reply → Bool
  | .ok errors _ _ _ => decide (errors ≤ 0)
  | _ => false

inductive OutcomeReply where
  | raised
  | ok (inserted : Int)

/-- What each question is answered at each moment. -/
structure Net where
  aboveTeam : Entry → Bool
  contact : Nat → Bool
  learningSharing : Nat → Bool
  platformTelemetry : Nat → Bool
  quarantined : Nat → Entry → Bool
  learningsReply : Nat → String → List Entry → Reply
  outcomesReply : Nat → String → List String → OutcomeReply

inductive Request where
  | learnings (url : String) (entries : List Entry) (reply : Reply)
  | outcomes (url : String) (payloads : List String) (reply : OutcomeReply)

/-- The moment, and the requests answered so far. -/
structure Wire where
  tick : Nat
  sent : List Request

abbrev Push := Eff String Wire

def ask {α : Type} (f : Nat → α) : Push α := fun w => (.ok (f w.tick), { w with tick := w.tick + 1 })

/-! ## Targets -/

structure Target where
  url : String
  label : String
deriving DecidableEq

/-- The host name of the URL, or the URL itself where there is none; `hostname` is `urlparse`'s. -/
def labelForUrl (hostname : String → Option String) (url : String) : String :=
  match hostname url with
  | some host => if host = "" then url else host
  | none => url

def buildTargets (hostname : String → Option String) (urls : List String) : List Target :=
  urls.map fun url => ⟨url, labelForUrl hostname url⟩

structure Pusher where
  url : String
  batchSize : Int
  learningSharing : Bool
  platformTelemetry : Bool

/-! ## One batch of learnings -/

structure BatchOutcome where
  pushed : Int := 0
  skipped : Int := 0
  failed : Nat := 0
  rejected : List (String × String) := []
  lastError : Option String := none

/-- Asked row by row, up to the first refusal. -/
@[grind =] def anyRefused (net : Net) : List Entry → Push Bool
  | [] => pure false
  | e :: rest => do
      if ← ask (net.quarantined · e) then pure true else anyRefused net rest

def learningsConsented (net : Net) (p : Pusher) : Push Bool :=
  if p.learningSharing then ask net.learningSharing else pure false

def learningsRequest (net : Net) (url : String) (entries : List Entry) : Push Reply := fun w =>
  let reply := net.learningsReply w.tick url entries
  (.ok reply, ⟨w.tick + 1, w.sent ++ [.learnings url entries reply]⟩)

/-- The live switches are asked again for every request; a refusal is an exception, which the
caller takes for a transport failure. -/
def postLearnings (net : Net) (p : Pusher) (entries : List Entry) : Push Reply := do
  if ← ask net.contact then
    if ← learningsConsented net p then learningsRequest net p.url entries else pure .raised
  else pure .raised

def addReason (count : Nat) (acc : List (Nat × String) × Bool) (d : Detail) :
    List (Nat × String) × Bool :=
  match d.loc with
  | .entry index field =>
      if 0 ≤ index ∧ index < count then
        let why := (if field = "" then "entry" else field) ++ ": " ++ d.msg
        let text := match Dict.lookup acc.1 index.toNat with
          | some old => old ++ "; " ++ why
          | none => why
        (Dict.set acc.1 index.toNat text, acc.2)
      else (acc.1, true)
  | .request => (acc.1, true)
  | .nowhere => acc

/-- The reasons by entry index, and whether a location names the request. -/
def entryReasons (details : List Detail) (count : Nat) : List (Nat × String) × Bool :=
  details.foldl (addReason count) ([], false)

def refuseAll (items : List Entry) (error : String) (out : BatchOutcome) : BatchOutcome :=
  { out with failed := out.failed + items.length, lastError := some error }

def rejectNamed (items : List Entry) (named : List (Nat × String)) (out : BatchOutcome) :
    BatchOutcome :=
  { out with
    rejected := named.foldl (fun d m =>
      match items[m.1]? with
      | some e => Dict.set d e.id ("HTTP 422: " ++ m.2)
      | none => d) out.rejected }

def unnamed (items : List Entry) (named : List (Nat × String)) : List Entry :=
  (items.zipIdx.filter fun m => !Dict.has named m.2).map (·.1)

/-- `_send`: every re-send is of fewer items than the request it follows, so a fuel above the number
of items is never used up. -/
@[grind =] def send (net : Net) (p : Pusher) : Nat → List Entry → BatchOutcome → List (String × String) →
    Push (BatchOutcome × List (String × String))
  | 0, _, out, inferred => pure (out, inferred)
  | fuel + 1, items, out, inferred => do
      if items.isEmpty then pure (out, inferred) else
      if ← anyRefused net items then
        pure (refuseAll items "a learning was quarantined during the push" out, inferred)
      else
        match ← postLearnings net p items with
        | .raised => pure (refuseAll items "transport failure" out, inferred)
        | .ok errors inserted updated skipped =>
            if errors > 0 then
              pure (refuseAll items "backend reported errors" out, inferred)
            else
              pure ({ out with
                pushed := out.pushed + (inserted + updated)
                skipped := out.skipped + skipped }, inferred)
        | .refused _ reason => pure (refuseAll items reason out, inferred)
        | .unreadable => Eff.raise "unreadable error body"
        | .unprocessable details reason =>
            let reasons := entryReasons details items.length
            if !reasons.1.isEmpty then
              send net p fuel (unnamed items reasons.1) (rejectNamed items reasons.1 out) inferred
            else if reasons.2 then pure (refuseAll items reason out, inferred)
            else
              match items with
              | [e] => pure (out, Dict.set inferred e.id reason)
              | _ => do
                  let half := items.length / 2
                  let (out, inferred) ← send net p fuel (items.take half) out inferred
                  send net p fuel (items.drop half) out inferred

/-- Where every entry was refused without a location, the request is at fault, not the entries. -/
def sendLearningBatch (net : Net) (p : Pusher) (items : List Entry) : Push BatchOutcome := do
  let (out, inferred) ← send net p (items.length + 1) items {} []
  if !inferred.isEmpty ∧ inferred.length = items.length ∧ 1 < items.length then
    pure { out with
      failed := out.failed + inferred.length
      lastError := inferred.head?.map (·.2) }
  else pure { out with rejected := inferred.foldl (fun d m => Dict.set d m.1 m.2) out.rejected }

/-! ## A push -/

structure PushResult where
  pushed : Int := 0
  failed : Nat := 0
  skipped : Int := 0
  rejected : List (String × String) := []
  lastError : Option String := none

def PushResult.add (r : PushResult) (out : BatchOutcome) : PushResult where
  pushed := r.pushed + out.pushed
  failed := r.failed + out.failed
  skipped := r.skipped + out.skipped
  rejected := out.rejected.foldl (fun d m => Dict.set d m.1 m.2) r.rejected
  lastError := match out.lastError with
    | some error => some error
    | none => r.lastError

/-- `range(0, n, size)` cuts `n` items so; a negative size gives no batch. -/
@[grind =] def batchesFrom {α : Type} (size : Nat) : Nat → List α → List (List α)
  | 0, _ => []
  | fuel + 1, items =>
      if items.isEmpty then [] else items.take size :: batchesFrom size fuel (items.drop size)

def batches {α : Type} (size : Int) (items : List α) : Push (List (List α)) :=
  if size = 0 then Eff.raise "range() arg 3 must not be zero"
  else if size < 0 then pure []
  else pure (batchesFrom size.toNat items.length items)

/-- A batch that meets a closed switch or a quarantined row ends the push without a failure. -/
@[grind =] def pushBatches (net : Net) (p : Pusher) : List (List Entry) → PushResult → Push PushResult
  | [], r => pure r
  | batch :: rest, r => do
      if ← ask net.contact then
        if ← learningsConsented net p then
          if ← anyRefused net batch then pure r
          else do
            let out ← sendLearningBatch net p batch
            pushBatches net p rest (r.add out)
        else pure r
      else pure r

def pushLearnings (net : Net) (p : Pusher) (entries : List Entry) : Push PushResult := do
  if entries.isEmpty then pure {} else
  if ← learningsConsented net p then
    if ← ask net.contact then
      let entries := entries.filter (!net.aboveTeam ·)
      if entries.isEmpty then pure {} else do
        let all ← batches p.batchSize entries
        pushBatches net p all {}
    else pure {}
  else pure {}

def telemetryConsented (net : Net) (p : Pusher) : Push Bool :=
  if p.platformTelemetry then ask net.platformTelemetry else pure false

def postOutcomes (net : Net) (p : Pusher) (payloads : List String) : Push OutcomeReply := fun w =>
  let reply := net.outcomesReply w.tick p.url payloads
  (.ok reply, ⟨w.tick + 1, w.sent ++ [.outcomes p.url payloads reply]⟩)

/-- A batch fails as a whole; a closed switch ends the push without a failure. -/
@[grind =] def pushOutcomeBatches (net : Net) (p : Pusher) : List (List String) → PushResult →
    Push PushResult
  | [], r => pure r
  | batch :: rest, r => do
      if ← ask net.contact then
        if ← telemetryConsented net p then
          match ← postOutcomes net p batch with
          | .ok inserted => pushOutcomeBatches net p rest { r with pushed := r.pushed + inserted }
          | .raised =>
              pushOutcomeBatches net p rest { r with failed := r.failed + batch.length }
        else pure r
      else pure r

def pushOutcomes (net : Net) (p : Pusher) (payloads : List String) : Push PushResult := do
  if payloads.isEmpty then pure {} else
  if ← telemetryConsented net p then
    if ← ask net.contact then do
      let all ← batches p.batchSize payloads
      pushOutcomeBatches net p all {}
    else pure {}
  else pure {}

/-! ## The fan-out -/

structure Client where
  targets : List Target
  batchSize : Int
  learningSharing : Bool
  platformTelemetry : Bool

def Client.pusherFor (c : Client) (t : Target) : Pusher :=
  ⟨t.url, c.batchSize, c.learningSharing, c.platformTelemetry⟩

/-- The pushers by label, built over all targets: the last target of a label is the one kept. -/
def Client.pushers (c : Client) : List (String × Pusher) :=
  Dict.ofPairs (c.targets.map fun t => (t.label, c.pusherFor t))

def Client.pusherOf (c : Client) (t : Target) : Pusher :=
  (Dict.lookup c.pushers t.label).getD (c.pusherFor t)

structure TargetPushOutcome where
  learnings : PushResult := {}
  outcomes : PushResult := {}

def TargetPushOutcome.failed (r : TargetPushOutcome) : Nat := r.learnings.failed + r.outcomes.failed

inductive TargetStatus where
  | success
  | partialError
  | error
deriving DecidableEq

def TargetPushOutcome.status (r : TargetPushOutcome) : TargetStatus :=
  if r.failed > 0 then .partialError else .success

def pushToTarget (net : Net) (c : Client) (t : Target) (dirty : List Entry)
    (payloads : List String) : Push TargetPushOutcome := do
  let p := c.pusherOf t
  let learnings ← pushLearnings net p dirty
  let outcomes ← pushOutcomes net p payloads
  pure ⟨learnings, outcomes⟩

structure Fanout where
  report : List (String × TargetStatus) := []
  primary : TargetPushOutcome := {}

/-- A target that raises is reported and the next one is tried. -/
def Fanout.record (primaryLabel : String) (t : Target) (f : Fanout) :
    Except String TargetPushOutcome → Fanout
  | .error _ => { f with report := Dict.set f.report t.label .error }
  | .ok r =>
      { report := Dict.set f.report t.label r.status
        primary := if t.label = primaryLabel ∧ r.status = .success then r else f.primary }

@[grind =] def fanoutPush (net : Net) (c : Client) (primaryLabel : String) (dirty : List Entry)
    (payloads : List String) : List Target → Fanout → Push Fanout
  | [], f => pure f
  | t :: rest, f => do
      let r ← Eff.handle (fun _ => true)
        (do let r ← pushToTarget net c t dirty payloads; pure (Except.ok r))
        (fun error => pure (.error error))
      fanoutPush net c primaryLabel dirty payloads rest (f.record primaryLabel t r)

/-! ## What the cycle acknowledges -/

/-- The rows marked synced by the push, the rows marked for their label, the rows held back, the
outcome mark and the markers written. -/
structure Acknowledged where
  synced : List Entry := []
  labelled : List Entry := []
  held : List Entry := []
  outcomeLine : Option Nat := none
  markers : List PendingOutcome := []

/-- Python's `xs[:n]`. -/
def slice {α : Type} (items : List α) (n : Int) : List α :=
  if n < 0 then items.take (items.length - n.natAbs) else items.take n.toNat

def notRejected (r : PushResult) (dirty : List Entry) : List Entry :=
  dirty.filter (!Dict.has r.rejected ·.id)

def acknowledgeLearnings (dirty : List Entry) (f : Fanout) (status : Option TargetStatus)
    (ack : Acknowledged) : Acknowledged :=
  if !dirty.isEmpty ∧ status = some .success ∧ f.primary.learnings.failed = 0 then
    { ack with
      synced := slice (notRejected f.primary.learnings dirty)
        (f.primary.learnings.pushed + f.primary.learnings.skipped)
      held := dirty.filter (Dict.has f.primary.learnings.rejected ·.id) }
  else ack

/-- `_outcomes_were_accepted`: the flag of the client, not the switches the pusher asked. -/
def outcomesWereAccepted (c : Client) (r : TargetPushOutcome) : Bool :=
  c.platformTelemetry && decide (r.outcomes.failed = 0)

def acknowledgeOutcomes (c : Client) (pending : List PendingOutcome) (f : Fanout)
    (status : Option TargetStatus) (ack : Acknowledged) : Acknowledged :=
  if !pending.isEmpty ∧ status = some .success ∧ outcomesWereAccepted c f.primary = true then
    { ack with
      outcomeLine := (pending.map (·.lineNo)).max?
      markers := pending.filter fun o => o.runDir.isSome && o.syncHash != "" }
  else ack

/-- The push half of `run_one_cycle`; `rows` and `loaded` are the dirty page and the pending
outcomes. -/
def pushHalf (net : Net) (c : Client) (rows : List Entry) (loaded : List PendingOutcome) :
    Push Acknowledged :=
  match c.targets with
  | [] => pure {}
  | first :: _ => do
      let dirty := if c.learningSharing then rows else []
      let labelled := dirty.filter net.aboveTeam
      let dirty := dirty.filter (!net.aboveTeam ·)
      let pending := if c.platformTelemetry then loaded else []
      let f ← fanoutPush net c first.label dirty (pending.map (·.payload)) c.targets {}
      let status := Dict.lookup f.report first.label
      pure (acknowledgeOutcomes c pending f status
        (acknowledgeLearnings dirty f status { labelled := labelled }))

end TrwMcp.Sync
