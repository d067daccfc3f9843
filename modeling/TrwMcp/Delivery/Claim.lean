import TrwMcp.Lib.Regex
import TrwMcp.Lib.Run

/-!
# Delivery claims

One row an operation, a tombstone once the row is compacted, and after the tombstone only the age
check on the time inside the identifier. A claim reads the clock and the high-water mark, checks the
identifier, runs the maintenance and then commits, in three transactions that other processes come
between.
-/

namespace TrwMcp.Delivery

open Lib

/-! ## Identifiers -/

/-- `str.lower()` of the characters a UUID may have. -/
def lowerText (text : String) : String := String.ofList (text.toList.map Char.toLower)

def isHexLower (c : Char) : Bool := c.isDigit || ('a' ≤ c && c ≤ 'f')

/-- Canonical 8-4-4-4-12 text. -/
def isCanonical (text : String) : Bool :=
  text.toList.length = 36 &&
    (text.toList.zipIdx.all fun m =>
      if m.2 ∈ [8, 13, 18, 23] then m.1 = '-' else isHexLower m.1)

def hexDigitValue (c : Char) : Nat := if c.isDigit then c.toNat - 48 else c.toNat - 87

/-- `uuid.int >> 80` -/
def timestampMs (uuid : String) : Nat :=
  ((uuid.toList.take 8 ++ (uuid.toList.drop 9).take 4).map hexDigitValue).foldl
    (fun n d => 16 * n + d) 0

/-- `parsed.version`, of the RFC variant. -/
def uuidVersion (uuid : String) : Option Nat :=
  if uuid.toList[19]?.any fun c => decide (c ∈ ['8', '9', 'a', 'b']) then
    uuid.toList[14]?.map hexDigitValue
  else none

def futureSkewMs : Int := 5 * 60 * 1000

def day : Int := 24 * 60 * 60 * 1000

def acceptanceHorizonMs : Int := 180 * day

def terminalFullRetentionMs : Int := 30 * day

def unresolvedFullRetentionMs : Int := 90 * day

def tombstoneTtlMs : Int := acceptanceHorizonMs

def minCapabilityBytes : Nat := 16

def maxRecordBytes : Nat := 128 * 1024

/-- `validate_delivery_id`: the identifier, as the canonical text of its value. -/
def validateDeliveryId (deliveryId : String) (effectiveNow : Int) : Except String String :=
  if deliveryId = "" ∨ '\x00' ∈ deliveryId.toList then .error "malformed_id"
  else if '/' ∈ deliveryId.toList ∨ '\\' ∈ deliveryId.toList ∨ ['.', '.'] <:+: deliveryId.toList then
    .error "malformed_id"
  else
    let uuid := lowerText deliveryId
    if !isCanonical uuid then .error "malformed_id"
    else if uuidVersion uuid ≠ some 7 then .error "wrong_uuid_version"
    else if futureSkewMs < timestampMs uuid - effectiveNow then .error "future_skew"
    else if acceptanceHorizonMs < effectiveNow - timestampMs uuid then .error "expired_id"
    else .ok uuid

/-! ## Requests -/

structure CanonicalRequest where
  schemaVersion : Nat := 1
  projectScope : String
  runIdentity : String
  skipReflect : Bool
  skipIndexSync : Bool
  allowUnverified : Bool
  acceptableFailureDigest : String
  deriving DecidableEq

/-- The hashes, and the size of a request's canonical bytes. -/
structure Digests where
  /-- `CanonicalRequest.digest` -/
  request : CanonicalRequest → String
  /-- `len(request.canonical_bytes())` -/
  requestBytes : CanonicalRequest → Nat
  /-- `_salted_hash(token, salt)` -/
  salted : String → String → String

/-- `normalize_run_identity` -/
def normalizeRunIdentity (runIdentity : String) : Except String String :=
  let slashed := runIdentity.toList.map fun c => if c = '\\' then '/' else c
  let stripped := (slashed.dropWhile Regex.isSpace).rdropWhile Regex.isSpace
  if stripped.head? = some '/' ∨ ['.', '.'] ∈ stripped.splitOn '/' then .error "bad_run_identity"
  else .ok (String.ofList stripped)

/-- The arguments of `claim`; no run identity is the empty one. -/
structure ClaimArgs where
  deliveryId : String
  capabilityToken : String
  projectScope : String
  runIdentity : String := ""
  skipReflect : Bool := false
  skipIndexSync : Bool := false
  allowUnverified : Bool := false
  acceptableFailureDigest : String := ""
  owner : String := ""
  pid : Int := 0
  deriving DecidableEq

def buildCanonicalRequest (digests : Digests) (args : ClaimArgs) :
    Except String CanonicalRequest := do
  let runIdentity ← normalizeRunIdentity args.runIdentity
  let request : CanonicalRequest :=
    { projectScope := args.projectScope, runIdentity, skipReflect := args.skipReflect,
      skipIndexSync := args.skipIndexSync, allowUnverified := args.allowUnverified,
      acceptableFailureDigest := args.acceptableFailureDigest }
  if maxRecordBytes < digests.requestBytes request then .error "oversize_request"
  else return request

/-! ## The store -/

inductive OperationState where
  | pending
  | running
  | criticalComplete
  | deferredQueued
  | deferredRunning
  | blocked
  | failed
  | cancelRequested
  | cancelled
  | indeterminate
  | succeeded
  deriving DecidableEq

/-- The states whose rows go after 30 days. -/
def OperationState.isFinished : OperationState → Bool
  | .succeeded | .failed | .cancelled => true
  | _ => false

structure Operation where
  operationId : String
  projectScope : String
  runIdentity : String
  requestDigest : String
  capabilitySalt : String
  capabilityHash : String
  state : OperationState
  revision : Nat
  createdUtcMs : Int
  updatedUtcMs : Int
  expiryUtcMs : Int
  leaseOwner : String
  leasePid : Int
  leaseExpiryUtcMs : Int
  terminalUtcMs : Int
  deriving DecidableEq

/-- A tombstone; the findings it keeps are read by nothing here. -/
structure Tombstone where
  operationId : String
  projectScope : String
  requestDigest : String
  createdUtcMs : Int
  expiryUtcMs : Int
  deriving DecidableEq

structure Store where
  highWater : Int := 0
  operations : List Operation := []
  tombstones : List Tombstone := []

def Store.operation (s : Store) (id : String) : Option Operation :=
  s.operations.find? (·.operationId = id)

def Store.tombstone (s : Store) (id : String) : Option Tombstone :=
  s.tombstones.find? (·.operationId = id)

/-! ## Maintenance -/

/-- Whether a maintenance at `now` compacts the row. -/
def Operation.expires (now : Int) (op : Operation) : Bool :=
  if op.state.isFinished then
    op.terminalUtcMs ≠ 0 && decide (terminalFullRetentionMs ≤ now - op.terminalUtcMs)
  else decide (unresolvedFullRetentionMs ≤ now - op.createdUtcMs)

/-- `_compact`, with the expiry of `_acceptance_expiry` -/
def Operation.tombstone (op : Operation) : Tombstone where
  operationId := op.operationId
  projectScope := op.projectScope
  requestDigest := op.requestDigest
  createdUtcMs := op.createdUtcMs
  expiryUtcMs := op.createdUtcMs + tombstoneTtlMs

/-- `INSERT OR REPLACE` -/
def insertTombstone (tombstones : List Tombstone) (t : Tombstone) : List Tombstone :=
  tombstones.filter (·.operationId ≠ t.operationId) ++ [t]

/-- The tombstones of a maintenance before it deletes any. -/
def compacted (now : Int) (s : Store) : List Tombstone :=
  ((s.operations.filter (·.expires now)).map Operation.tombstone).foldl insertTombstone s.tombstones

/-- `run_maintenance`; the queue links it reaps take no part in a claim. -/
def runMaintenance (now : Int) (s : Store) : Store :=
  { s with
      operations := s.operations.filter fun op => !op.expires now
      tombstones := (compacted now s).filter fun t => decide (now < t.expiryUtcMs) }

/-! ## Claims -/

inductive ClaimStatus where
  | claimed
  | existing
  | conflict
  | rejected
  | storeFull
  deriving DecidableEq

structure ClaimResult where
  status : ClaimStatus
  reasonCode : String
  operationId : String := ""
  revision : Nat := 0
  state : Option OperationState := none
  deriving DecidableEq

/-- A claim past its checks. -/
structure Ticket where
  args : ClaimArgs
  /-- the value the identifier names -/
  uuid : String
  requestDigest : String
  runIdentity : String
  effectiveNow : Int
  deriving DecidableEq

section

variable (digests : Digests)

/-- `claim` up to the maintenance. -/
def beginClaim (s : Store) (args : ClaimArgs) (now : Int) : Except ClaimResult Ticket :=
  let effectiveNow := max now s.highWater
  let checked : Except String Ticket := do
    let uuid ← validateDeliveryId args.deliveryId effectiveNow
    if args.capabilityToken.toUTF8.size < minCapabilityBytes then .error "weak_capability"
    else
      let request ← buildCanonicalRequest digests args
      return { args, uuid, requestDigest := digests.request request,
               runIdentity := request.runIdentity, effectiveNow }
  match checked with
  | .ok ticket => .ok ticket
  | .error code => .error { status := .rejected, reasonCode := code }

/-- `verify_capability` -/
def verifyCapability (token : String) (op : Operation) : Bool :=
  digests.salted op.capabilitySalt token = op.capabilityHash

/-- The row a claim inserts. -/
def Ticket.operation (t : Ticket) (salt : String) (staleLeaseMs : Int) : Operation where
  operationId := t.args.deliveryId
  projectScope := t.args.projectScope
  runIdentity := t.runIdentity
  requestDigest := t.requestDigest
  capabilitySalt := salt
  capabilityHash := digests.salted salt t.args.capabilityToken
  state := .pending
  revision := 1
  createdUtcMs := t.effectiveNow
  updatedUtcMs := t.effectiveNow
  expiryUtcMs := t.effectiveNow + tombstoneTtlMs
  leaseOwner := t.args.owner
  leasePid := t.args.pid
  leaseExpiryUtcMs := if t.args.owner = "" then 0 else t.effectiveNow + staleLeaseMs
  terminalUtcMs := 0

/-- `commit_claim`; `full` is `over_hard_caps`. -/
def commitClaim (s : Store) (t : Ticket) (salt : String) (staleLeaseMs : Int) (full : Bool) :
    ClaimResult × Store :=
  let s := { s with highWater := max s.highWater t.effectiveNow }
  match s.operation t.args.deliveryId with
  | some op =>
      if op.requestDigest = t.requestDigest ∧
          verifyCapability digests t.args.capabilityToken op = true then
        ({ status := .existing, reasonCode := "idempotent_same_request",
           operationId := op.operationId, revision := op.revision, state := some op.state }, s)
      else ({ status := .conflict, reasonCode := "delivery_request_conflict" }, s)
  | none =>
      match s.tombstone t.args.deliveryId with
      | some tombstone =>
          if tombstone.requestDigest = t.requestDigest then
            ({ status := .existing, reasonCode := "tombstoned_terminal",
               operationId := t.args.deliveryId }, s)
          else
            ({ status := .conflict, reasonCode := "delivery_request_conflict",
               operationId := t.args.deliveryId }, s)
      | none =>
          if full then ({ status := .storeFull, reasonCode := "delivery_store_full" }, s)
          else
            ({ status := .claimed, reasonCode := "claimed", operationId := t.args.deliveryId,
               revision := 1, state := some .pending },
              { s with operations := s.operations ++ [t.operation digests salt staleLeaseMs] })

/-! ## Runs -/

/-- Where a claim of one caller stands. -/
inductive Stage where
  | checked
  | maintained
  deriving DecidableEq

/-- The store, the claims under way, and the ones that came to `CLAIMED`, which nothing stores. -/
structure World (A : Type) where
  store : Store
  underWay : A → Option (Ticket × Stage)
  claimed : List Ticket := []

/-- One step. A row may change in every column but its identifier, its digests, its capability and
the time it was created. -/
inductive Deed (A : Type) where
  | «begin» (a : A) (args : ClaimArgs) (now : Int)
  | maintain (a : A)
  | commit (a : A) (salt : String) (staleLeaseMs : Int) (full : Bool)
  | abandon (a : A)
  | maintenance (now : Int)
  | touch (change : Operation → Operation)

/-- What no later write of a row changes. -/
structure KeepsRow (op op' : Operation) : Prop where
  operationId : op'.operationId = op.operationId
  projectScope : op'.projectScope = op.projectScope
  requestDigest : op'.requestDigest = op.requestDigest
  salt : op'.capabilitySalt = op.capabilitySalt
  hash : op'.capabilityHash = op.capabilityHash
  created : op'.createdUtcMs = op.createdUtcMs

variable {A : Type} [DecidableEq A]

/-- The result of the claim a step commits. -/
def World.committed (w : World A) (t : Ticket) (salt : String) (staleLeaseMs : Int)
    (full : Bool) : World A :=
  let (result, store) := commitClaim digests w.store t salt staleLeaseMs full
  { w with
      store
      claimed := if result.status = .claimed then w.claimed ++ [t] else w.claimed }

inductive Step : World A → Deed A → World A → Prop
  | checked {w : World A} {a : A} {args : ClaimArgs} {now : Int} {t : Ticket}
      (h : beginClaim digests w.store args now = .ok t) :
      Step w (.«begin» a args now)
        { w with underWay := Function.update w.underWay a (some (t, .checked)) }
  | rejected {w : World A} {a : A} {args : ClaimArgs} {now : Int} {result : ClaimResult}
      (h : beginClaim digests w.store args now = .error result) : Step w (.«begin» a args now) w
  | maintained {w : World A} {a : A} {t : Ticket} (h : w.underWay a = some (t, .checked)) :
      Step w (.maintain a)
        { w with
            store := runMaintenance t.effectiveNow w.store
            underWay := Function.update w.underWay a (some (t, .maintained)) }
  | committed {w : World A} {a : A} {t : Ticket} {salt : String} {staleLeaseMs : Int} {full : Bool}
      (h : w.underWay a = some (t, .maintained)) :
      Step w (.commit a salt staleLeaseMs full)
        { w.committed digests t salt staleLeaseMs full with
            underWay := Function.update w.underWay a none }
  | abandoned {w : World A} {a : A} :
      Step w (.abandon a) { w with underWay := Function.update w.underWay a none }
  | maintenance {w : World A} {now : Int} :
      Step w (.maintenance now) { w with store := runMaintenance now w.store }
  | touched {w : World A} {change : Operation → Operation}
      (h : ∀ op ∈ w.store.operations, KeepsRow op (change op)) :
      Step w (.touch change)
        { w with store := { w.store with operations := w.store.operations.map change } }

end

end TrwMcp.Delivery
