import TrwMcp.Comms.Cursor

/-!
# The verifier's rules, by version

What `verify` asks of the rows of a mailbox before it is used. The tables of version 3 are the ones
every version has; version 4 adds columns, version 5 the handoff facts and reports, version 6 the
trace context and version 7 the AHR log, which no rule reads. A rule of all versions is stated once,
over the tables of version 3.

A column's type is the type of its field: the verifier's type checks have no counterpart here.
-/

namespace TrwMcp.Comms

open Handoff Lib

/-! ## The tables of version 3 -/

section

variable (T : Type)

structure GroupV3 where
  formationId : String
  manifestPath : String
  createdAt : T
  groupTime : T
  closed : Bool
  groupLimit : Nat
  bodyLimit : Nat
  outstandingLimit : Nat
  rateLimit : Nat
  charge : Nat
  deriving DecidableEq

structure EndpointV3 where
  incarnation : String
  sessionId : String
  runPath : String
  enrolledAt : T
  lastSeenAt : T
  leaseExpiresAt : T
  deriving DecidableEq

structure AdmissionV3 where
  groupId : String
  senderMemberId : String
  requestKey : String
  recipientMemberId : String
  kind : String
  deliveryClass : String
  body : String
  recipientIncarnation : String
  admittedAt : T
  state : MessageState
  deriving DecidableEq

structure MailboxV3 where
  groups : Dict String (GroupV3 T) := []
  endpoints : Dict (String × String) (EndpointV3 T) := []
  admissions : Dict String (AdmissionV3 T) := []
  milestones : Dict (String × Fact) T := []
  refusalCounts : Dict (String × String) Nat := []

end

section

variable {T : Type}

/-- The columns a group has had since version 3. -/
def Group.v3 (g : Group T) : GroupV3 T where
  formationId := g.formationId
  manifestPath := g.manifestPath
  createdAt := g.createdAt
  groupTime := g.groupTime
  closed := g.closed
  groupLimit := g.groupLimit
  bodyLimit := g.bodyLimit
  outstandingLimit := g.outstandingLimit
  rateLimit := g.rateLimit
  charge := g.charge

def EndpointRow.v3 (e : EndpointRow T) : EndpointV3 T where
  incarnation := e.incarnation
  sessionId := e.sessionId
  runPath := e.runPath
  enrolledAt := e.enrolledAt
  lastSeenAt := e.lastSeenAt
  leaseExpiresAt := e.leaseExpiresAt

def Admission.v3 (a : Admission T) : AdmissionV3 T where
  groupId := a.groupId
  senderMemberId := a.senderMemberId
  requestKey := a.requestKey
  recipientMemberId := a.recipientMemberId
  kind := a.kind
  deliveryClass := a.deliveryClass
  body := a.body
  recipientIncarnation := a.recipientIncarnation
  admittedAt := a.admittedAt
  state := a.state

def Db.v3 (db : Db T) : MailboxV3 T where
  groups := db.groups.map fun m => (m.1, m.2.v3)
  endpoints := db.endpoints.map fun m => (m.1, m.2.v3)
  admissions := db.admissions.map fun m => (m.1, m.2.v3)
  milestones := db.milestones
  refusalCounts := db.refusalCounts

end

/-! ## The rules of every version -/

section

variable {T : Type} [Clock T]

/-- `Path(text).is_absolute()` -/
def isAbsolute (path : String) : Bool := path.toList.head? == some '/'

/-- `_groups` -/
def GroupOk (id : String) (g : GroupV3 T) : Prop :=
  isHexText 32 id = true ∧ isMemberId g.formationId = true ∧ g.manifestPath ≠ "" ∧
    isAbsolute g.manifestPath = true ∧ g.createdAt ≤ g.groupTime ∧
    (1 ≤ g.groupLimit ∧ g.groupLimit ≤ 4096) ∧ (1 ≤ g.bodyLimit ∧ g.bodyLimit ≤ 65536) ∧
    (1 ≤ g.outstandingLimit ∧ g.outstandingLimit ≤ 256) ∧ (1 ≤ g.rateLimit ∧ g.rateLimit ≤ 256) ∧
    g.charge ≤ g.groupLimit

variable (version : Nat) (m : MailboxV3 T)

/-- The group a row names exists, and has a property. -/
def InGroup (id : String) (p : GroupV3 T → Prop) : Prop := ∃ g ∈ Dict.lookup m.groups id, p g

/-- `_endpoints` -/
def EndpointOk (key : String × String) (e : EndpointV3 T) : Prop :=
  InGroup m key.1 fun g =>
    isMemberId key.2 = true ∧ isHexText 32 e.incarnation = true ∧ e.sessionId ≠ "" ∧
    e.runPath ≠ "" ∧ isAbsolute e.runPath = true ∧ e.enrolledAt ≤ e.lastSeenAt ∧
    e.lastSeenAt ≤ e.leaseExpiresAt ∧ e.lastSeenAt ≤ g.groupTime

/-- The pending rows of a recipient. -/
def outstandingOf (groupId recipient : String) : Nat :=
  (m.admissions.filter fun row => row.2.groupId == groupId &&
    row.2.recipientMemberId == recipient && row.2.state == .pending).length

/-- The admission times of a sender. -/
def timesOf (groupId sender : String) : List T :=
  (m.admissions.filter fun row => row.2.groupId == groupId &&
    row.2.senderMemberId == sender).map (·.2.admittedAt)

/-- No minute of ordered times, ending in each of them, has more than `limit`. -/
@[grind =] def rateOk (limit : Nat) (window : List T) : List T → Bool
  | [] => true
  | now :: rest =>
      let window := (window ++ [now]).dropWhile fun t => !Clock.recent now t
      decide (window.length ≤ limit) && rateOk limit window rest

/-- `_admissions`, what it asks of one row. A pending row of version 3 is bound to an endpoint. -/
def AdmissionOk (id : String) (a : AdmissionV3 T) : Prop :=
  InGroup m a.groupId (fun g =>
    isHexText 32 id = true ∧ isMemberId a.senderMemberId = true ∧
    isMemberId a.recipientMemberId = true ∧ kinds.contains a.kind = true ∧
    deliveryClasses.contains a.deliveryClass = true ∧
    (1 ≤ a.requestKey.utf8ByteSize ∧ a.requestKey.utf8ByteSize ≤ 128) ∧
    a.body.utf8ByteSize ≤ g.bodyLimit ∧ isHexText 32 a.recipientIncarnation = true ∧
    g.createdAt ≤ a.admittedAt ∧ a.admittedAt ≤ g.groupTime ∧
    (a.state = .pending → outstandingOf m a.groupId a.recipientMemberId ≤ g.outstandingLimit) ∧
    rateOk g.rateLimit [] ((timesOf m a.groupId a.senderMemberId).insertionSort (· ≤ ·)) = true) ∧
  (version < 4 → a.state = .pending →
    ∃ e ∈ Dict.lookup m.endpoints (a.groupId, a.recipientMemberId),
      e.incarnation = a.recipientIncarnation)

/-- The lifetime charge of a group is the number of its rows. -/
def ChargeOk (id : String) (g : GroupV3 T) : Prop :=
  (m.admissions.filter fun row => row.2.groupId == id).length = g.charge

/-- `_milestones`, what it asks of one fact. -/
def MilestoneOk (key : String × Fact) (at_ : T) : Prop :=
  ∃ a ∈ Dict.lookup m.admissions key.1, InGroup m a.groupId fun g =>
    (5 ≤ version ∨ key.2 ∉ [Fact.accepted, .reported, .completed]) ∧
    a.admittedAt ≤ at_ ∧ at_ ≤ g.groupTime

/-- `_milestones`, what it asks of one row: its admitted fact and the terminal fact of its state. -/
def FactsOk (id : String) (a : AdmissionV3 T) : Prop :=
  Dict.lookup m.milestones (id, .admitted) = some a.admittedAt ∧
    (Dict.has m.milestones (id, .acked) = true ↔ a.state = .acked) ∧
    (Dict.has m.milestones (id, .expired) = true ↔ a.state = .expired) ∧
    ∀ fact ∈ [Fact.acked, .expired], ∀ ended ∈ Dict.lookup m.milestones (id, fact),
      ∀ prepared ∈ Dict.lookup m.milestones (id, .fetchPrepared), prepared ≤ ended

/-- What `verify` asks of a refusal counter. -/
def RefusalOk (key : String × String) (count : Nat) : Prop :=
  InGroup m key.1 fun _ => storedRefusals.contains key.2 = true ∧ 1 ≤ count ∧ count ≤ maxCounter

/-- The rules of every version. -/
structure RowsOk : Prop where
  groups : ∀ row ∈ m.groups, GroupOk row.1 row.2
  endpoints : ∀ row ∈ m.endpoints, EndpointOk m row.1 row.2
  append : m.admissions.length ≤ maxCounter
  admissions : ∀ row ∈ m.admissions, AdmissionOk version m row.1 row.2
  charges : ∀ row ∈ m.groups, ChargeOk m row.1 row.2
  milestones : ∀ row ∈ m.milestones, MilestoneOk version m row.1 row.2
  facts : ∀ row ∈ m.admissions, FactsOk m row.1 row.2
  refusals : ∀ row ∈ m.refusalCounts, RefusalOk m row.1 row.2

end

/-! ## The rules of later versions -/

section

variable {T : Type} [Clock T]

/-- The columns of version 4. -/
structure ColumnsOk (db : Db T) : Prop where
  budgets : ∀ row ∈ db.groups, 65536 ≤ row.2.bodyBudget ∧ row.2.bodyBudget ≤ 16777216
  endpoints : ∀ row ∈ db.endpoints,
    (1 ≤ row.2.generation ∧ row.2.generation ≤ maxCounter) ∧
      (row.2.protocol = 3 ∨ row.2.protocol = 4)
  admissions : ∀ row ∈ db.admissions, row.2.admittedAt ≤ row.2.expiresAt ∧
    row.2.deliveryCount ≤ maxCounter ∧ isHexText 64 row.2.canonicalSha256 = true

/-- `pairwise(chain)` of `_handoffs`. -/
def handoffChain : List (Fact × Fact) :=
  [(.acked, .accepted), (.accepted, .reported), (.reported, .completed)]

/-- `_handoffs`: handoff facts on requests, each after the one before it, and a report with each
reported fact. -/
structure HandoffsOk (lib : Stdlib) (db : Db T) : Prop where
  requests : ∀ row ∈ db.milestones, row.1.2 ∈ [Fact.accepted, .reported, .completed] →
    ∃ a ∈ Dict.lookup db.admissions row.1.1, a.kind = "request"
  chained : ∀ row ∈ db.milestones, ∀ pair ∈ handoffChain, row.1.2 = pair.2 →
    ∃ before ∈ Dict.lookup db.milestones (row.1.1, pair.1), before ≤ row.2
  reports : ∀ row ∈ db.handoffReports, Dict.has db.admissions row.1 = true ∧
    validNextRead lib row.2.1 = true ∧
    Dict.lookup db.milestones (row.1, .reported) = some row.2.2
  paired : ∀ row ∈ db.milestones, row.1.2 = .reported →
    Dict.has db.handoffReports row.1.1 = true

/-- `valid_traceparent(value) == value`; the expression's `$` also stops before a last newline. -/
def isTraceparent (value : String) : Bool :=
  let cs := if value.toList.getLast? = some '\n' then value.toList.dropLast else value.toList
  let trace := (cs.drop 3).take 32
  let span := (cs.drop 36).take 16
  decide (cs.length = 55) && cs.take 3 == ['0', '0', '-'] && trace.all isHex &&
    (cs.drop 35).take 1 == ['-'] && span.all isHex && (cs.drop 52).take 1 == ['-'] &&
    (cs.drop 53).all isHex && trace.any (· != '0') && span.any (· != '0')

/-- The trace context of version 6. -/
def TracesOk (db : Db T) : Prop :=
  ∀ row ∈ db.admissions, ∀ carrier ∈ row.2.traceparent, isTraceparent carrier = true

/-- The row checks of `verify`, from version 4 on. -/
structure Verified (lib : Stdlib) (version : Nat) (db : Db T) : Prop where
  rows : RowsOk version db.v3
  columns : ColumnsOk db
  handoffs : 5 ≤ version → HandoffsOk lib db
  traces : 6 ≤ version → TracesOk db

end

end TrwMcp.Comms
