import TrwMcp.State.Jsonl
import TrwMcp.Lib.Run

/-!
# Trust outcomes

One call consumes one outcome under the registry's lock: the counters, the binding of the outcome to
its receipt set and the tier go into one atomic write, and a crossed tier boundary is appended to
the audit log after it. A fault stops a call at one of its steps.
-/

namespace TrwMcp.Trust

open Lib State

/-! ## The registry -/

/-- A key of a YAML mapping: a string, or another scalar by its `str`. -/
inductive Key where
  | str (s : String)
  | other (text : String)
  deriving DecidableEq

inductive Yaml where
  | null
  | int (n : Int)
  | str (s : String)
  | map (items : List (Key × Yaml))
  | other (text : String)

abbrev Mapping := Dict Key Yaml

/-- The YAML reader and writer, `str` and `int` of the values the code computes neither of itself,
and whether `UnsafeWriteError` is an `OSError`. -/
structure Stdlib (T : Type) where
  load : T → Option Yaml
  dump : Mapping → T
  text : Yaml → String
  parseInt : String → Option Int
  unsafeWriteIsOSError : Bool

/-- What is written is read back. -/
def Stdlib.Lawful {T : Type} (lib : Stdlib T) : Prop := ∀ m, lib.load (lib.dump m) = some (.map m)

def Key.text : Key → String
  | .str s => s
  | .other text => text

section

variable {T : Type} (lib : Stdlib T)

/-- `str(value)` -/
def str : Yaml → String
  | .str s => s
  | v => lib.text v

/-- `_as_int`; nothing is the `ValueError`. -/
def asInt : Yaml → Option Int
  | .null => some 0
  | .int n => some n
  | v => lib.parseInt (str lib v)

/-- `read_yaml`; nothing is the `StateError`. -/
def readYaml (content : T) : Option Mapping :=
  match lib.load content with
  | some .null => some []
  | some (.map m) => some m
  | _ => none

def consumedIdsKey : Key := .str "consumed_trust_outcome_ids"

def defaultProject : Mapping :=
  [(.str "session_count", .int 0), (.str "successful_sessions", .int 0),
    (.str "last_session_at", .null), (.str "tier", .str "crawl")]

/-- The registry `read_trust_registry` creates where there is none. -/
def defaultRegistry : Mapping :=
  [(.str "project", .map (defaultProject ++ [(consumedIdsKey, .map [])]))]

def coerceProject (registry : Mapping) : Mapping :=
  match Dict.lookup registry (.str "project") with
  | some (.map project) => project
  | _ => defaultProject

/-- `_read_consumed_map` -/
def readConsumedMap (project : Mapping) : Dict String String :=
  match Dict.lookup project consumedIdsKey with
  | some (.map items) => Dict.ofPairs (items.map fun m => (m.1.text, str lib m.2))
  | _ => []

/-- `_as_int(project.get(key, 0))` -/
def count (project : Mapping) (key : String) : Option Int :=
  asInt lib ((Dict.lookup project (.str key)).getD (.int 0))

/-! ## Tiers -/

structure TrustConfig where
  trustCrawlBoundary : Int := 50
  trustWalkBoundary : Int := 200

inductive Tier where
  | crawl
  | walk
  | run
  deriving DecidableEq

def Tier.name : Tier → String
  | .crawl => "crawl"
  | .walk => "walk"
  | .run => "run"

def tierForCount (config : TrustConfig) (n : Int) : Tier :=
  if n ≤ config.trustCrawlBoundary then .crawl
  else if n ≤ config.trustWalkBoundary then .walk
  else .run

structure AuditEntry where
  timestamp : String
  agentId : String
  previousTier : Tier
  newTier : Tier
  sessionCount : Int
  boundaryCrossed : Int
  triggeredBy : String

/-! ## One call -/

structure Call where
  trustOutcomeId : String
  receiptSetDigest : String
  /-- `agent_id`, or the environment's -/
  agentId : String
  now : String

inductive ConsumeStatus where
  | incremented
  | idempotent
  | conflict
  | writeFailed
  deriving DecidableEq

structure TrustConsumeResult where
  status : ConsumeStatus
  reason : String
  trustOutcomeId : String
  receiptSetDigest : String
  sessionCount : Int
  successfulSessions : Int
  previousTier : Tier
  newTier : Tier
  transitioned : Bool
  incremented : Bool
  deriving DecidableEq

/-- The errors of the registry writer: every `OSError` is made a `StateError`, and a refused path is
a `ContainmentError`, a `StateError` and an `UnsafeWriteError`. -/
inductive WriteError where
  | state
  | containment
  deriving DecidableEq

def WriteError.isOSError : WriteError → Bool
  | .state => false
  | .containment => lib.unsafeWriteIsOSError

/-- Where a call goes wrong. -/
inductive Fault where
  | none
  | defaultWrite (e : WriteError)
  | crashBeforeWrite
  | write (e : WriteError)
  | crashAfterWrite
  | auditAppend (written : Written)
  | crashAfterAudit
  deriving DecidableEq

inductive Reply where
  | returned (r : TrustConsumeResult)
  | raised
  | crashed
  deriving DecidableEq

/-- The registry's content, the audit log, and the results callers were given, which nothing
stores. -/
structure World (T : Type) where
  registry : Option T
  audit : JsonlFile AuditEntry
  returned : List TrustConsumeResult := []

/-- A result that leaves everything as it is. -/
def settled (config : TrustConfig) (call : Call) (status : ConsumeStatus) (reason : String)
    (oldCount oldSucc : Int) : TrustConsumeResult where
  status
  reason
  trustOutcomeId := call.trustOutcomeId
  receiptSetDigest := call.receiptSetDigest
  sessionCount := oldCount
  successfulSessions := oldSucc
  previousTier := tierForCount config oldCount
  newTier := tierForCount config oldCount
  transitioned := false
  incremented := false

/-- The project with one more outcome. -/
def countOutcome (config : TrustConfig) (call : Call) (project : Mapping)
    (consumed : Dict String String) (oldCount oldSucc : Int) : Mapping :=
  let consumed := Dict.set consumed call.trustOutcomeId call.receiptSetDigest
  let project := Dict.set project (.str "session_count") (.int (oldCount + 1))
  let project := Dict.set project (.str "successful_sessions") (.int (oldSucc + 1))
  let project := Dict.set project (.str "last_session_at") (.str call.now)
  let project := Dict.set project (.str "tier") (.str (tierForCount config (oldCount + 1)).name)
  Dict.set project consumedIdsKey (.map (consumed.map fun m => (.str m.1, .str m.2)))

def auditEntry (config : TrustConfig) (call : Call) (newCount : Int) (oldTier newTier : Tier) :
    AuditEntry where
  timestamp := call.now
  agentId := call.agentId
  previousTier := oldTier
  newTier
  sessionCount := newCount
  boundaryCrossed :=
    if newTier = .walk then config.trustCrawlBoundary else config.trustWalkBoundary
  triggeredBy := "trust_outcome"

/-- The last steps, once the registry is written. -/
def logTransition (config : TrustConfig) (call : Call) (oldCount oldSucc : Int) (fault : Fault)
    (audit : JsonlFile AuditEntry) : Reply × JsonlFile AuditEntry :=
  let oldTier := tierForCount config oldCount
  let newTier := tierForCount config (oldCount + 1)
  let entry := auditEntry config call (oldCount + 1) oldTier newTier
  let result : TrustConsumeResult :=
    { status := .incremented
      reason := "consumed"
      trustOutcomeId := call.trustOutcomeId
      receiptSetDigest := call.receiptSetDigest
      sessionCount := oldCount + 1
      successfulSessions := oldSucc + 1
      previousTier := oldTier
      newTier
      transitioned := oldTier ≠ newTier
      incremented := true }
  if fault = .crashAfterWrite then (.crashed, audit)
  else if oldTier ≠ newTier then
    match fault with
    | .auditAppend written => (.raised, audit.append entry written)
    | .crashAfterAudit => (.crashed, audit.append entry .line)
    | _ => (.returned result, audit.append entry .line)
  else if fault = .crashAfterAudit then (.crashed, audit)
  else (.returned result, audit)

/-- The call on the content of the registry it has read. -/
def consumeRead (config : TrustConfig) (call : Call) (fault : Fault) (content : T)
    (audit : JsonlFile AuditEntry) : Reply × T × JsonlFile AuditEntry :=
  match readYaml lib content with
  | none => (.raised, content, audit)
  | some registry =>
      let project := coerceProject registry
      let consumed := readConsumedMap lib project
      match count lib project "session_count", count lib project "successful_sessions" with
      | some oldCount, some oldSucc =>
          match Dict.lookup consumed call.trustOutcomeId with
          | some prior =>
              if prior = call.receiptSetDigest then
                (.returned (settled config call .idempotent "already_consumed_identical" oldCount
                  oldSucc), content, audit)
              else
                (.returned (settled config call .conflict
                  "receipt_set_changed_for_consumed_outcome" oldCount oldSucc), content, audit)
          | none =>
              let project := countOutcome config call project consumed oldCount oldSucc
              let written := lib.dump (Dict.set registry (.str "project") (.map project))
              match fault with
              | .crashBeforeWrite => (.crashed, content, audit)
              | .write e =>
                  if e.isOSError lib then
                    (.returned (settled config call .writeFailed "registry_write_failed" oldCount
                      oldSucc), content, audit)
                  else (.raised, content, audit)
              | _ =>
                  let (reply, audit) := logTransition config call oldCount oldSucc fault audit
                  (reply, written, audit)
      | _, _ => (.raised, content, audit)

/-- `consume_trust_outcome` -/
def World.consume (config : TrustConfig) (w : World T) (call : Call) (fault : Fault) :
    Reply × World T :=
  match w.registry, fault with
  | none, .defaultWrite _ => (.raised, w)
  | registry, _ =>
      let content := registry.getD (lib.dump defaultRegistry)
      let (reply, content, audit) := consumeRead lib config call fault content w.audit
      (reply,
        { registry := some content
          audit
          returned :=
            match reply with
            | .returned r => w.returned ++ [r]
            | _ => w.returned })

/-- One call, and where it goes wrong. -/
def Step (config : TrustConfig) (w : World T) (deed : Call × Fault) (w' : World T) : Prop :=
  w' = (w.consume lib config deed.1 deed.2).2

end

end TrwMcp.Trust
