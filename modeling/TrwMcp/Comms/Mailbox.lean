import TrwMcp.Comms.AhrEvents
import TrwMcp.Lib.Run

/-!
# The mailbox as a transition system

One public call is one transaction: group birth, the clock, lazy expiry, the AHR sweep and the
tombstones first, then the action under a savepoint. An expected refusal takes the action back and
counts itself; any other failure takes the whole transaction back. `perform` is that transaction,
and a mailbox is reachable when a run of calls leads to it from the empty schema.

What a call reads outside the file is part of the call: who is calling and with what membership, the
configuration, the wall clock, the process memory, the files, the fresh ids and how much fits a
response.
-/

namespace TrwMcp.Comms

open Handoff Lib

/-! ## Calls -/

inductive InboxAction where
  | fetch | ack | status | accept | report | complete | readBack | answer | decline | offerWithdraw
  deriving DecidableEq, Repr

namespace InboxAction

/-- `AHR_ACTIONS` -/
def isAhr : InboxAction → Bool
  | readBack | answer | decline | offerWithdraw => true
  | _ => false

/-- `HANDOFF_ACTIONS` -/
def isHandoff : InboxAction → Bool
  | accept | report | complete => true
  | a => a.isAhr

/-- `RECEIVER_ACTIONS` -/
def isReceiver : InboxAction → Bool
  | fetch | ack | accept | report | readBack | decline => true
  | _ => false

/-- `SENDER_ACTIONS` -/
def isSender : InboxAction → Bool
  | complete | answer | offerWithdraw => true
  | _ => false

/-- `_AHR_ARGUMENT`: the one key of `handoff` the action takes. -/
def ahrArgument : InboxAction → Option String
  | readBack | answer => some "path"
  | decline | offerWithdraw => some "reason"
  | report => some "outcome"
  | _ => none

end InboxAction

structure InboxArgs where
  action : InboxAction
  ids : Option (List String) := none
  /-- a cursor, as the position it decodes to in this caller's scope -/
  cursor : Option (Option Nat) := none
  waitSeconds : Int := 0
  /-- the owner the first attempt of a bounded wait froze -/
  owner : Option (CallerBinding × Option String) := none
  nextRead : Option String := none
  handoff : Option Json := none
  /-- how many entries fit the response, if even the empty page or the receipt does -/
  room : Option Nat := none

structure SendArgs where
  recipientMemberId : Option String := none
  requestKey : String := ""
  body : String := ""
  kind : String := "request"
  deliveryClass : String := "on_demand"
  scope : Option String := none
  handoff : Option Json := none

inductive PeerAction where
  | enroll (token : String)
  | list
  | heartbeat

inductive Request where
  | send (args : SendArgs)
  | inbox (args : InboxArgs)
  | peers (action : PeerAction) (fits : Bool)

/-- One public call that reaches the mailbox. -/
structure Call (T : Type) where
  snapshot : CallerSnapshot
  config : Config
  wall : T
  env : Surroundings
  memory : Memory
  request : Request

def invalidArguments : Fault := .refused "invalid_inbox_arguments"

/-- `validate_wait` -/
def validateWait (args : InboxArgs) (maxSeconds : Nat) : Mail Unit := do
  if args.waitSeconds > 0 ∧ maxSeconds = 0 then throw (.refused "wait_disabled")
  if args.waitSeconds < 0 ∨ (maxSeconds : Int) < args.waitSeconds then
    throw (.refused "invalid_wait_seconds")
  if args.waitSeconds > 0 ∧ (args.action ≠ .fetch ∨ args.ids.isSome ∨ args.cursor.isSome) then
    throw (.refused "wait_requires_fresh_fetch")

/-- `list(dict.fromkeys(ids))` -/
def firstOccurrences (ids : List String) : List String := ids.reverse.dedup.reverse

section

variable (lib : Stdlib)

/-! ## Inbox actions -/

/-- The value of the argument `handoff` under the key the action takes. -/
def checkedValue (key : String) (value : Json) : Mail String :=
  match value with
  | .str s =>
      if isBlank s ∨ 2000 < s.utf8ByteSize ∨
          (key = "outcome" ∧ !(["met", "returned", "escalated"].contains s)) then
        throw invalidArguments
      else pure s
  | _ => throw invalidArguments

/-- `_ahr_argument` -/
def ahrArgument (action : InboxAction) (handoff : Option Json) : Mail (Option String) :=
  match handoff, action.ahrArgument with
  | none, _ => if action.isAhr then throw invalidArguments else pure none
  | some (.obj [(name, value)]), some key =>
      if name = key then do return some (← checkedValue key value) else throw invalidArguments
  | some _, _ => throw invalidArguments

variable {T : Type} [Clock T]

/-- The AHR-only actions of `_ahr_write`. -/
def ahrOnlyWrite (env : Surroundings) (db : Db T) (binding : CallerBinding) (action : InboxAction)
    (messageId value : String) (now : T) : Mail (Db T) := do
  let asSender := decide (action = .answer ∨ action = .offerWithdraw)
  let rows ← handoffRows db binding [messageId] asSender
  if !asSender && rows.any fun row => row.2.state == .expired then
    throw (.refused "handoff_not_authorized")
  match action with
  | .readBack => AhrEvents.readBack lib env db messageId value now
  | .answer => AhrEvents.answer lib env db messageId value now
  | .offerWithdraw => AhrEvents.withdraw lib env db messageId value now
  | _ => do
      let db ← AhrEvents.decline lib env db messageId value now
      acknowledge db (rows.filter fun row => row.2.state == .pending) now

/-- `_ahr_write`: the AHR event of a handoff action, if the message carries an AHR. -/
def ahrWrite (env : Surroundings) (binding : CallerBinding) (action : InboxAction)
    (value nextRead : Option String) (now : T) (db : Db T) (messageId : String) : Mail (Db T) := do
  if action.isAhr then
    ahrOnlyWrite lib env db binding action messageId (value.getD "None") now
  else match handoffOf db messageId with
    | none => if value.isSome then throw invalidArguments else return db
    | some _ => match action with
      | .accept => AhrEvents.accept lib env db messageId now
      | .report => match value with
        | none => throw (.refused "ahr_report_needs_outcome")
        | some outcome =>
            AhrEvents.report lib env db binding.groupId messageId (nextRead.getD "None") outcome now
      | _ => AhrEvents.complete lib env db messageId now

/-- The pointer of a report; no other handoff action takes one. -/
def reportPointer (args : InboxArgs) (ids : List String) : Mail (Option String) :=
  if args.action = .report then
    match args.nextRead with
    | none => throw (.refused "report_needs_next_read")
    | some text =>
        if ids.length ≠ 1 then throw (.refused "report_takes_one_message_id")
        else pure (some (strip text))
  else if args.nextRead.isSome then throw invalidArguments
  else pure none

/-- The CORE-322 write of a handoff action. -/
def milestoneWrite (db : Db T) (binding : CallerBinding) (action : InboxAction) (ids : List String)
    (nextRead : Option String) (now : T) : Mail (Db T) :=
  match action with
  | .accept => accept db binding ids now
  | .report => report lib db binding (ids.headD "") (nextRead.getD "None") now
  | .complete => complete db binding ids now
  | _ => pure db

/-- The message ids of a call, checked and without repetitions. -/
def checkedIds (args : InboxArgs) (limit : Nat) (missing : Fault) : Mail (List String) :=
  match args.ids with
  | none | some [] => throw missing
  | some ids =>
      if limit < ids.length then throw missing
      else if ids.any fun id => !isHexText 32 id then throw (.refused "invalid_message_id")
      else pure (firstOccurrences ids)

/-- `_handoff`: the argument rules, the milestone, then the AHR event of each message. -/
def handoffAction (env : Surroundings) (db : Db T) (binding : CallerBinding) (args : InboxArgs)
    (now : T) (limit : Nat) : Mail (Db T) := do
  let ids ← checkedIds args limit invalidArguments
  let value ← ahrArgument args.action args.handoff
  if args.action.isAhr ∧ ids.length ≠ 1 then throw invalidArguments
  let nextRead ← reportPointer args ids
  if args.room.isNone then throw (.refused "response_too_small")
  let db ← milestoneWrite lib db binding args.action ids nextRead now
  ids.foldlM (ahrWrite lib env binding args.action value nextRead now) db

/-- `_read_rows`: one page of rows after a position, and one more. -/
def readRows (db : Db T) (binding : CallerBinding) (action : InboxAction) (after limit : Nat) :
    List (Row T) :=
  ((db.admissions.drop after).filter fun m => m.2.groupId == binding.groupId &&
    if action = .fetch then m.2.recipientMemberId == binding.memberId && m.2.state == .pending
    else m.2.senderMemberId == binding.memberId || m.2.recipientMemberId == binding.memberId).take
      (limit + 1)

/-! ## The AHR block of a status view -/

/-- `_ENDED` -/
def hasEnded (state : Option LogState) : Bool :=
  match state with
  | some .declined | some .withdrawn | some .expired | some .superseded => true
  | _ => false

/-- `_MAX_SUBJECT_RECORDS` -/
def maxSubjectRecords : Nat := 64

/-- The handoffs of a subject in the group. -/
def subjectHandoffs (db : Db T) (subject groupId : String) : List String :=
  ((db.ahrEvents.filter fun row => row.subject == subject &&
    (Dict.lookup db.admissions row.messageId).any fun a => a.groupId == groupId).map
      (·.handoffId)).reverse.dedup.reverse

/-- The handoff ids a record lists in `supersedes`. -/
def listedBy (log : AhrLog) : Py (List String) := do
  (← log.handoff.listGet "supersedes").mapM fun prior => do
    return formatValue lib (some (← prior.item "handoff_id"))

/-- The handoffs listed by a successor that did not itself end declined, withdrawn or expired. -/
def listedHandoffs (logs : List (String × AhrLog)) : Py (List String) := do
  let live := logs.filter fun m =>
    m.2.state ≠ some .declined && m.2.state ≠ some .withdrawn && m.2.state ≠ some .expired
  return (← live.mapM fun m => listedBy lib m.2).flatten

/-- `_current_set`: not ended, and not listed; `none` past the replay bound. -/
def currentSet (db : Db T) (subject groupId : String) : Mail (Option (List String)) := do
  let ids := subjectHandoffs db subject groupId
  if maxSubjectRecords < ids.length then return none
  let logs ← ids.mapM fun id => do return (id, ← rebuild lib db id)
  let listed ← uncaught (listedHandoffs lib logs)
  return some ((logs.filter fun m => !hasEnded m.2.state && !listed.contains m.1).map (·.1))

/-- `view`, as far as it can fail: the handoff's log and, unless it ended, the current set. -/
def ahrView (db : Db T) (messageId groupId : String) : Mail Unit :=
  match handoffOf db messageId with
  | none => pure ()
  | some handoffId => do
      let log ← rebuild lib db handoffId
      if !hasEnded log.state then
        let subject ← uncaught (log.handoff.strItem "subject")
        let _ ← currentSet lib db subject groupId

/-- A page of `fetch` or `status`. A row past the bound is built to find that it does not fit, and
a page that cannot hold its first row is refused. -/
def readPage (db : Db T) (action : InboxAction) (rows : List (Row T)) (incarnation : String) (now : T)
    (room : Option Nat) : Mail (Db T) :=
  match room with
  | none => throw (.refused "response_too_small")
  | some n => do
      if action = .status then
        (rows.take (n + 1)).forM fun row => ahrView lib db row.1 row.2.groupId
      if n = 0 ∧ !rows.isEmpty then throw (.refused "response_too_small")
      if action = .fetch then return prepareFetch db (rows.take n) now incarnation
      return db

/-- Where a page starts. -/
def cursorPosition (cursor : Option (Option Nat)) : Mail Nat :=
  match cursor with
  | none => pure 0
  | some (some n) => pure n
  | some none => throw (.refused "invalid_cursor")

/-- `inbox_action` -/
def inboxAction (env : Surroundings) (db : Db T) (binding : CallerBinding) (args : InboxArgs)
    (incarnation : Option String) (now : T) (config : Config) : Mail (Db T) := do
  let limit := config.fetchMaxItems.val
  if args.cursor.isSome ∧ args.action ≠ .fetch ∧ args.action ≠ .status then throw invalidArguments
  if args.action.isHandoff then handoffAction lib env db binding args now limit
  else if args.nextRead.isSome ∨ args.handoff.isSome then throw invalidArguments
  else if args.action = .ack then
    let ids ← checkedIds args limit (.refused "invalid_ack_ids")
    let rows ← validateAck db binding ids
    if args.room.isNone then throw (.refused "response_too_small")
    acknowledge db rows now
  else if args.ids.isSome then throw invalidArguments
  else
    let after ← cursorPosition args.cursor
    let group ← groupRow db binding.groupId
    if args.action = .fetch ∧ config.responseMaxBytes.val < 6 * group.bodyLimit + 4096 then
      throw (.refused "response_body_policy_incompatible")
    let rows := (readRows db binding args.action after limit).take limit
    readPage lib db args.action rows (incarnation.getD "None") now args.room

/-! ## The bodies of the three public operations -/

/-- The caller's lease: a receiver must hold the endpoint, a sender must not be displaced. -/
def renewCaller (call : Call T) (args : InboxArgs) (db : Db T) (now : T) (ttl : Nat) :
    Mail (Db T × Option String) :=
  let binding := call.snapshot.binding
  if args.action.isReceiver then do
    let (db, mine) ← (receiverIncarnation db call.memory binding now ttl args.owner.isNone).2
    return (db, some mine)
  else do
    let db ← (touch db call.memory binding now ttl args.action.isSender).2
    return (db, none)

/-- `_inbox_attempt`, inside its transaction. -/
def inboxBody (call : Call T) (args : InboxArgs) (db : Db T) (now : T) (closed : Bool) :
    Mail (Db T) := do
  let binding := call.snapshot.binding
  if call.snapshot.allTerminal ∨ (closed ∧ args.action ≠ .status) then
    throw (.refused "group_closed")
  let ttl := call.config.leaseTtlSeconds.val
  let (db, incarnation) ← renewCaller call args db now ttl
  validateWait args call.config.waitMaxSeconds.val
  if args.waitSeconds > 0 ∧ args.owner.any (· ≠ (binding, incarnation)) then
    throw (.refused "wait_owner_changed")
  inboxAction lib call.env db binding args incarnation now call.config

/-- `_offer_record`: the checked AHR an offer sends, or none for a plain message. -/
def offerRecord (env : Surroundings) (args : SendArgs) (sender : String) : Mail (Option Json) :=
  match args.handoff with
  | none => pure none
  | some (.obj [("path", path)]) => do
      match args.scope, args.recipientMemberId with
      | none, some recipient =>
          if args.kind ≠ "request" then throw (.refused "not_a_handoff")
          if args.body ≠ "" then throw (.refused "ahr_body_conflict")
          match path with
          | .str path => return some (← readOffer lib env path sender recipient)
          | _ => throw invalidArguments
      | _, _ => throw (.refused "ahr_unaddressed_not_supported")
  | some _ => throw invalidArguments

/-- The body of a send: the caller's, or the pointer to the record it offers. -/
def bodyOf (args : SendArgs) (record : Option Json) : Mail String :=
  match record with
  | some record => uncaught (pointer lib record)
  | none => pure args.body

/-- A send to one member, and the offer its row carries. -/
def sendDirect (call : Call T) (args : SendArgs) (record : Option Json) (body : String) (db : Db T)
    (now : T) : Mail (Db T) := do
  let e : Envelope := {
    recipientMemberId := args.recipientMemberId.getD "", requestKey := args.requestKey, body
    kind := args.kind, deliveryClass := args.deliveryClass }
  let (db, row) ← admitMessage lib call.env db call.snapshot e now
    call.config.messageTtlSeconds.val false
  match record with
  | some record => offer lib call.env db call.snapshot.binding.groupId row.1 record now
  | none => return db

/-- A send to the members that declare a path in the scope. -/
def sendScoped (call : Call T) (args : SendArgs) (scope body : String) (db : Db T) (now : T) :
    Mail (Db T) := do
  let scope ← parseScope lib scope call.config.scopeMaxBytes.val
  let (db, _) ← notify lib call.env db call.snapshot scope
    ⟨args.requestKey, body, args.kind, args.deliveryClass⟩ now
    call.config.scopeMaxRecipients.val call.config.messageTtlSeconds.val
  return db

/-- `send_once`, inside its transaction. -/
def sendBody (call : Call T) (args : SendArgs) (db : Db T) (now : T) : Mail (Db T) := do
  let binding := call.snapshot.binding
  if call.snapshot.allTerminal then throw (.refused "group_closed")
  if args.scope.isNone = args.recipientMemberId.isNone then throw (.refused "ambiguous_addressing")
  let db ← (touch db call.memory binding now call.config.leaseTtlSeconds.val true).2
  let record ← offerRecord lib call.env args binding.memberId
  let body ← bodyOf lib args record
  match args.scope with
  | none => sendDirect lib call args record body db now
  | some scope => sendScoped lib call args scope body db now

/-- The action of `_peers` on the endpoints. -/
def peersAction (call : Call T) (action : PeerAction) (db : Db T) (now : T) : Mail (Db T) :=
  let binding := call.snapshot.binding
  let ttl := call.config.leaseTtlSeconds.val
  match action with
  | .enroll token => do return (← (enroll db call.memory binding token now ttl).2).1
  | .heartbeat => (heartbeat db call.memory binding now ttl).2
  | .list => pure db

/-- `_peers`, inside its transaction. -/
def peersBody (call : Call T) (action : PeerAction) (fits : Bool) (db : Db T) (now : T)
    (closed : Bool) : Mail (Db T) := do
  if closed then throw (.refused "group_closed")
  let db ← peersAction call action db now
  if !fits then throw (.refused "response_too_small")
  return db

def body (call : Call T) (db : Db T) (now : T) (closed : Bool) : Mail (Db T) :=
  match call.request with
  | .send args => sendBody lib call args db now
  | .inbox args => inboxBody lib call args db now closed
  | .peers action fits => peersBody call action fits db now closed

/-! ## The transaction -/

/-- A group whose members are all terminal is closed for good. -/
def closeGroup (db : Db T) (groupId : String) (allTerminal : Bool) : Db T :=
  if allTerminal then updateGroup db groupId fun g => { g with closed := true } else db

/-- `_operation`, before the action: the mailbox, the group time and whether the group is closed. -/
def prepare (db : Db T) (call : Call T) : Mail (Db T × T × Bool) := do
  let binding := call.snapshot.binding
  let now := effectiveTime db binding.groupId call.wall
  let db ← ensureGroup db binding now call.config
  let db := touchGroupTime db binding.groupId now
  let terminal := (call.snapshot.recipients.filter (·.terminal)).map (·.memberId)
  let db := expireDue db binding.groupId now terminal
  let db ← sweepExpired lib call.env db binding.groupId now
  let db := tombstoneDue db binding.groupId now call.config.retryGraceSeconds.val
  let db := closeGroup db binding.groupId call.snapshot.allTerminal
  return (db, now, (← groupRow db binding.groupId).closed)

/-- The transaction of a call: what it commits, and the refusal it recorded, if any. -/
def transact (db : Db T) (call : Call T) : Mail (Db T × Option String) := do
  let (db, now, closed) ← prepare lib db call
  match body lib call db now closed with
  | .ok db => return (db, none)
  | .error (.refused reason) =>
      return (← countRefusal db call.snapshot.binding.groupId (persistedBucket reason), some reason)
  | .error fault => throw fault

/-- The mailbox after a call: a failed transaction leaves it as it was. -/
def perform (db : Db T) (call : Call T) : Db T :=
  match transact lib db call with
  | .ok (db', _) => db'
  | .error _ => db

/-- One step of the mailbox. -/
def Performs (db : Db T) (call : Call T) (db' : Db T) : Prop := perform lib db call = db'

end

end TrwMcp.Comms
