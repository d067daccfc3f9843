import TrwMcp.Comms.Endpoints

/-!
# Admission policy, messages and milestones

The group's birth policy and its accounting, and the only writer of milestones and handoff reports:
admission, expiry, preparation, acknowledgement and the three handoff facts. The ledger stores no
actor, so who may write a fact is checked here, when it is written.
-/

namespace TrwMcp.Comms

open Handoff Lib

/-! ## Refusal accounting -/

/-- `REFUSALS` of the policy: the reasons a counter may be stored under. -/
def storedRefusals : List String :=
  ["group_closed", "invalid_recipient", "invalid_message_enum", "invalid_utf8",
    "invalid_request_key", "idempotency_conflict", "body_too_large", "group_admission_limit",
    "recipient_outstanding_limit", "sender_rate_limit", "recipient_not_eligible",
    "recipient_unavailable", "recipient_binding_mismatch",
    "live_endpoint_held_by_other_incarnation", "endpoint_replaced_by_newer_incarnation",
    "no_endpoint_for_member", "invalid_cursor", "response_too_small", "receiver_lease_expired",
    "invalid_inbox_arguments", "invalid_ack_ids", "ack_not_authorized",
    "response_body_policy_incompatible", "invalid_scope", "ambiguous_addressing",
    "scope_too_broad", "scope_matches_no_peer", "group_storage_budget", "not_a_handoff",
    "handoff_not_authorized", "handoff_not_accepted", "handoff_not_reported",
    "handoff_already_reported", "invalid_next_read", "ahr_invalid", "ahr_body_conflict",
    "ahr_tier_not_supported", "ahr_unaddressed_not_supported", "ahr_party_mismatch",
    "ahr_readback_required", "ahr_lifecycle_refused", "ahr_not_offered", "ahr_event_conflict",
    "ahr_ref_not_local", "ahr_ref_unverified", "ahr_expiry_exceeds_ttl"]

/-- `persisted_bucket`: the counter a reason is stored under. -/
def persistedBucket (reason : String) : String :=
  if reason = "handoff_to_self" then "recipient_not_eligible"
  else if reason = "ahr_onward_not_offered" then "ahr_lifecycle_refused"
  else if ["ahr_report_needs_outcome", "wait_disabled", "wait_owner_changed",
      "wait_requires_fresh_fetch", "invalid_wait_seconds", "unknown_message_id",
      "invalid_message_id", "report_needs_next_read", "report_takes_one_message_id",
      "invalid_message_body"].contains reason then "invalid_inbox_arguments"
  else reason

section

variable {T : Type}

/-- `count_refusal`: one bounded counter; a reason that is not admitted is an error. -/
def countRefusal (db : Db T) (groupId reason : String) : Mail (Db T) :=
  if !storedRefusals.contains reason then throw (.raised .valueError)
  else
    let count := match Dict.lookup db.refusalCounts (groupId, reason) with
      | none => 1
      | some n => if n < maxCounter then n + 1 else n
    pure { db with refusalCounts := Dict.set db.refusalCounts (groupId, reason) count }

/-! ## The group -/

/-- A number between two bounds. -/
abbrev Bounded (low high : Nat) := { n : Nat // low ≤ n ∧ n ≤ high }

/-- The settings the mailbox reads, with the bounds the configuration model enforces. -/
structure Config where
  groupRowLimit : Bounded 1 4096
  groupBodyBudgetBytes : Bounded 65536 16777216
  retryGraceSeconds : Bounded 0 86400
  bodyMaxBytes : Bounded 1 65536
  recipientOutstandingLimit : Bounded 1 256
  fetchMaxItems : Bounded 1 64
  responseMaxBytes : Bounded 4096 262144
  senderAdmissionsPerMinute : Bounded 1 256
  leaseTtlSeconds : Bounded 1 86400
  messageTtlSeconds : Bounded 300 604800
  scopeMaxRecipients : Bounded 1 32
  scopeMaxBytes : Bounded 1 4096
  waitMaxSeconds : Bounded 0 300
  /-- a body of control characters, escaped, still fits one response -/
  deliverable : 6 * bodyMaxBytes.val + 4096 ≤ responseMaxBytes.val

/-- A group at birth, with the policy of the configuration it was born under. -/
def Config.newGroup (config : Config) (binding : CallerBinding) (now : T) : Group T where
  formationId := binding.formationId
  manifestPath := binding.manifestPath
  createdAt := now
  groupTime := now
  closed := false
  groupLimit := config.groupRowLimit
  bodyLimit := config.bodyMaxBytes
  outstandingLimit := config.recipientOutstandingLimit
  rateLimit := config.senderAdmissionsPerMinute
  charge := 0
  bodyBudget := config.groupBodyBudgetBytes

/-- `ensure_group`: the policy is the one at birth; a persisted identity must agree. -/
def ensureGroup (db : Db T) (binding : CallerBinding) (now : T) (config : Config) : Mail (Db T) :=
  let (group, groups) := Dict.setDefault db.groups binding.groupId (config.newGroup binding now)
  if group.formationId ≠ binding.formationId ∨ group.manifestPath ≠ binding.manifestPath then
    throw (.corrupt "persisted group identity contradicts trusted binding")
  else pure { db with groups }

/-- `SELECT * FROM groups WHERE group_id=?` of a group that was ensured. -/
def groupRow (db : Db T) (groupId : String) : Mail (Group T) :=
  match Dict.lookup db.groups groupId with
  | some group => pure group
  | none => throw (.raised .typeError)

/-- The rows of a group. -/
def rowsIn (db : Db T) (groupId : String) : List (Admission T) :=
  (db.admissions.map (·.2)).filter fun a => a.groupId == groupId

/-- `SUM(LENGTH(CAST(body AS BLOB)))` over the group. -/
def liveBytes (db : Db T) (groupId : String) : Nat :=
  ((rowsIn db groupId).map fun a => a.body.utf8ByteSize).sum

/-- The pending rows of a recipient. -/
def outstanding (db : Db T) (groupId recipient : String) : Nat :=
  (rowsIn db groupId).countP fun a => a.recipientMemberId == recipient && a.state == .pending

variable [Clock T]

/-- `effective_time`: the wall clock, or the last persisted group time if that is later. -/
def effectiveTime (db : Db T) (groupId : String) (wall : T) : T :=
  match Dict.lookup db.groups groupId with
  | some group => max wall group.groupTime
  | none => max wall Clock.zero

/-- `touch_group_time` -/
def touchGroupTime (db : Db T) (groupId : String) (now : T) : Db T :=
  updateGroup db groupId fun g => if g.groupTime < now then { g with groupTime := now } else g

/-- The rows a sender had admitted in the last minute. -/
def recentRows (db : Db T) (groupId sender : String) (now : T) : Nat :=
  (rowsIn db groupId).countP fun a =>
    a.senderMemberId == sender && Clock.recent now a.admittedAt && decide (a.admittedAt ≤ now)

/-- `check_limits` -/
def checkLimits (db : Db T) (groupId : String) (group : Group T) (sender recipient body : String)
    (now : T) : Mail Unit := do
  if body.utf8ByteSize > group.bodyLimit then throw (.refused "body_too_large")
  if group.charge ≥ group.groupLimit then throw (.refused "group_admission_limit")
  if liveBytes db groupId + body.utf8ByteSize > group.bodyBudget then
    throw (.refused "group_storage_budget")
  if outstanding db groupId recipient ≥ group.outstandingLimit then
    throw (.refused "recipient_outstanding_limit")
  if recentRows db groupId sender now ≥ group.rateLimit then throw (.refused "sender_rate_limit")

/-! ## Messages -/

/-- `NEVER_PREPARED` -/
def neverPrepared : String := "00000000000000000000000000000000"

/-- `insert_admission`: the row, the charge and the admitted fact. `messageId` is fresh from
`uuid4`, the traceparent is the caller's. -/
def insertAdmission (db : Db T) (messageId : String) (row : Admission T) : Mail (Db T) :=
  if Dict.has db.admissions messageId || db.admissions.any fun m =>
      m.2.groupId == row.groupId && m.2.senderMemberId == row.senderMemberId &&
        m.2.requestKey == row.requestKey then
    throw (.corrupt "UNIQUE constraint failed: admissions")
  else
    let db := { db with admissions := Dict.set db.admissions messageId row }
    let db := updateGroup db row.groupId fun g => { g with charge := g.charge + 1 }
    insertMilestone db messageId .admitted row.admittedAt

/-- One condition of `expire_due`: the matching pending rows get the fact and the state. -/
def expireWhere (db : Db T) (groupId : String) (now : T) (due : Admission T → Bool) : Db T :=
  let matching := fun a : Admission T => a.groupId == groupId && a.state == .pending && due a
  let db := (db.admissions.filter fun m => matching m.2).foldl
    (fun db m => insertMilestoneOrIgnore db m.1 .expired now) db
  { db with
    admissions := Dict.mapValues (fun _ a => if matching a then { a with state := .expired } else a)
      db.admissions }

/-- `expire_due`: pending rows past their deadline, or addressed to a terminal member. -/
def expireDue (db : Db T) (groupId : String) (now : T) (terminalMembers : List String) : Db T :=
  let db := expireWhere db groupId now fun a => decide (a.expiresAt ≤ now)
  (terminalMembers.dedup.insertionSort (· ≤ ·)).foldl
    (fun db member => expireWhere db groupId now fun a => a.recipientMemberId == member) db

/-- `tombstone_due`: drop the body of terminal rows past their deadline and the grace. -/
def tombstoneDue (db : Db T) (groupId : String) (now : T) (grace : Nat) : Db T :=
  { db with
    admissions := Dict.mapValues (fun _ a =>
      if a.groupId = groupId ∧ a.state ≠ .pending ∧ a.body ≠ "" ∧
          Clock.plus a.expiresAt grace ≤ now then { a with body := "" } else a) db.admissions }

/-- A row with its message id. -/
abbrev Row (T : Type) := String × Admission T

/-- `prepare_fetch`: the returned rows are marked; a new preparer counts one more delivery. -/
def prepareFetch (db : Db T) (rows : List (Row T)) (now : T) (incarnation : String) : Db T :=
  rows.foldl (fun db row =>
    let db := insertMilestoneOrIgnore db row.1 .fetchPrepared now
    if row.2.recipientIncarnation ≠ incarnation then
      updateAdmission db row.1 fun a =>
        { a with deliveryCount := a.deliveryCount + 1, recipientIncarnation := incarnation }
    else db) db

/-- `SELECT * FROM admissions WHERE message_id=?`, in the caller's group. -/
def rowInGroup (db : Db T) (groupId messageId : String) : Mail (Admission T) :=
  match Dict.lookup db.admissions messageId with
  | some row => if row.groupId = groupId then pure row else throw (.refused "unknown_message_id")
  | none => throw (.refused "unknown_message_id")

/-- `validate_ack` -/
def validateAck (db : Db T) (binding : CallerBinding) (ids : List String) : Mail (List (Row T)) :=
  ids.mapM fun id => do
    let row ← rowInGroup db binding.groupId id
    if row.recipientMemberId ≠ binding.memberId ∨ row.state = .expired then
      throw (.refused "ack_not_authorized")
    return (id, row)

/-- `acknowledge` -/
def acknowledge (db : Db T) (rows : List (Row T)) (now : T) : Mail (Db T) :=
  rows.foldlM (fun db row =>
    if row.2.state = .acked then pure db
    else do
      let db ← insertMilestone db row.1 .acked now
      return updateAdmission db row.1 fun a => { a with state := .acked }) db

/-! ## Handoff facts -/

/-- `handoff_rows`: whole-batch authorization. The caller is the rows' recipient or, as sender,
their sender and not also their recipient. -/
def handoffRows (db : Db T) (binding : CallerBinding) (ids : List String) (asSender : Bool) :
    Mail (List (Row T)) :=
  ids.mapM fun id => do
    let row ← rowInGroup db binding.groupId id
    let party := if asSender then row.senderMemberId else row.recipientMemberId
    if party ≠ binding.memberId ∨ (asSender ∧ row.recipientMemberId = binding.memberId) then
      throw (.refused "handoff_not_authorized")
    if row.kind ≠ "request" then throw (.refused "not_a_handoff")
    return (id, row)

/-- The fact is recorded. -/
def hasFact (db : Db T) (fact : Fact) (messageId : String) : Bool := (factAt db messageId fact).isSome

/-- Record a fact on every row that did not have it when the batch was read. -/
def recordFact (db : Db T) (rows : List (Row T)) (recorded : String → Bool) (fact : Fact) (now : T) :
    Mail (Db T) :=
  rows.foldlM (fun db row =>
    if recorded row.1 then pure db else insertMilestone db row.1 fact now) db

/-- `accept`: a pending row is acknowledged first; an accepted one is an exact retry. -/
def accept (db : Db T) (binding : CallerBinding) (ids : List String) (now : T) : Mail (Db T) := do
  let checked ← handoffRows db binding ids false
  if checked.any fun row => row.2.state == .expired then
    throw (.refused "handoff_not_authorized")
  let acked ← acknowledge db checked now
  recordFact acked checked (hasFact db .accepted) .accepted now

/-- `valid_next_read`: 1 to 512 bytes, no control, format or line-breaking character. -/
def validNextRead (lib : Stdlib) (value : String) : Bool :=
  value ≠ "" &&
    value.toList.all (fun c =>
      (lib.category c).toList.head? ≠ some 'C' && !(["Zl", "Zp"].contains (lib.category c))) &&
    decide (value.utf8ByteSize ≤ 512)

/-- A second report: the same pointer changes nothing, another one is refused. -/
def repeatReport (db : Db T) (messageId nextRead : String) : Mail (Db T) :=
  match Dict.lookup db.handoffReports messageId with
  | some stored =>
      if stored.1 = nextRead then pure db else throw (.refused "handoff_already_reported")
  | none => throw (.refused "handoff_already_reported")

/-- The fact and its pointer, with one timestamp. -/
def insertReport (db : Db T) (messageId nextRead : String) (now : T) : Mail (Db T) := do
  let db ← insertMilestone db messageId .reported now
  if Dict.has db.handoffReports messageId then
    throw (.corrupt "UNIQUE constraint failed: handoff_reports.message_id")
  return { db with handoffReports := Dict.set db.handoffReports messageId (nextRead, now) }

/-- `report`: only the recipient, and only after it accepted. -/
def report (lib : Stdlib) (db : Db T) (binding : CallerBinding) (messageId nextRead : String)
    (now : T) : Mail (Db T) := do
  if !validNextRead lib nextRead then throw (.refused "invalid_next_read")
  let _ ← handoffRows db binding [messageId] false
  if !hasFact db .accepted messageId then throw (.refused "handoff_not_accepted")
  if hasFact db .reported messageId then repeatReport db messageId nextRead
  else insertReport db messageId nextRead now

/-- `complete`: only the requester, and only after a report. -/
def complete (db : Db T) (binding : CallerBinding) (ids : List String) (now : T) : Mail (Db T) := do
  let checked ← handoffRows db binding ids true
  if checked.any fun row => !hasFact db .reported row.1 then throw (.refused "handoff_not_reported")
  recordFact db checked (hasFact db .completed) .completed now

end

end TrwMcp.Comms
