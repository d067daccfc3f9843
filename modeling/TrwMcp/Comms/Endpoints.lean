import TrwMcp.Comms.Store

/-!
# Endpoint incarnations

One row a member in the shared table, and what each process remembers: the incarnation it enrolled
with under a binding, and the bindings it was displaced from. The memory is not part of the
transaction, so it changes also when the operation is refused: every function returns it beside its
outcome.
-/

namespace TrwMcp.Comms

open Handoff Lib

/-- The trusted caller. -/
structure CallerBinding where
  groupId : String
  formationId : String
  memberId : String
  sessionId : String
  /-- canonical -/
  runPath : String
  manifestPath : String
  deriving DecidableEq, Repr

/-- `_ownership_key`: group, member, run and pin. -/
abbrev OwnershipKey := String × String × String × String

def ownershipKey (binding : CallerBinding) : OwnershipKey :=
  (binding.groupId, binding.memberId, binding.runPath, binding.sessionId)

/-- The memory of one process: `_PROCESS_INCARNATIONS` and `_DISPLACED`. -/
structure Memory where
  incarnations : Dict OwnershipKey String := []
  displaced : List OwnershipKey := []
  deriving DecidableEq

def fenced : Fault := .refused "endpoint_replaced_by_newer_incarnation"

def notEnrolled : Fault := .refused "no_endpoint_for_member"

/-- `ENDPOINT_PROTOCOL` -/
def endpointProtocol : Nat := 4

section

variable {T : Type}

/-- `_fetch_row` -/
def fetchRow (db : Db T) (binding : CallerBinding) : Option (EndpointRow T) :=
  Dict.lookup db.endpoints (binding.groupId, binding.memberId)

/-- What the process remembers under the binding. -/
def Memory.mine (memory : Memory) (binding : CallerBinding) : Option String :=
  Dict.lookup memory.incarnations (ownershipKey binding)

/-- `_is_displaced` -/
def isDisplaced (memory : Memory) (binding : CallerBinding) (row : Option (EndpointRow T)) : Bool :=
  memory.displaced.contains (ownershipKey binding) ||
    match row, memory.mine binding with
    | some row, some mine => row.incarnation != mine
    | _, _ => false

/-- `_current`: the row and this process's incarnation; a displaced process is refused, and the
binding remembered as displaced. -/
def current (db : Db T) (memory : Memory) (binding : CallerBinding) (requireRow : Bool) :
    Memory × Mail (Option (EndpointRow T) × Option String) :=
  let row := fetchRow db binding
  if isDisplaced memory binding row then
    ({ memory with displaced := memory.displaced.insert (ownershipKey binding) }, .error fenced)
  else if requireRow && row.isNone then (memory, .error notEnrolled)
  else (memory, .ok (row, memory.mine binding))

variable [Clock T]

/-- `_renew` -/
def renew (db : Db T) (binding : CallerBinding) (now : T) (leaseTtl : Nat) : Db T :=
  { db with
    endpoints := Dict.mapValues (fun key row =>
      if key = (binding.groupId, binding.memberId) then
        { row with lastSeenAt := now, leaseExpiresAt := Clock.plus now leaseTtl }
      else row) db.endpoints }

/-- The row `enroll` writes: a renewal by the process that holds it, else a takeover. -/
def enrolledRow (binding : CallerBinding) (row : Option (EndpointRow T)) (mine : Option String)
    (token : String) (now : T) (leaseTtl : Nat) : EndpointRow T :=
  let (incarnation, enrolledAt, generation) :=
    match row, mine with
    | some row, some mine => (mine, row.enrolledAt, row.generation)
    | some row, none => (token, now, row.generation + 1)
    | none, _ => (token, now, 1)
  { incarnation, sessionId := binding.sessionId, runPath := binding.runPath, enrolledAt
    lastSeenAt := now, leaseExpiresAt := Clock.plus now leaseTtl, generation
    protocol := endpointProtocol }

/-- `enroll`; `token` is `secrets.token_hex(16)`. A generation past the largest SQLite integer
cannot be bound. -/
def enroll (db : Db T) (memory : Memory) (binding : CallerBinding) (token : String) (now : T)
    (leaseTtl : Nat) : Memory × Mail (Db T × String) :=
  match current db memory binding false with
  | (memory, .error e) => (memory, .error e)
  | (memory, .ok (row, mine)) =>
      let new := enrolledRow binding row mine token now leaseTtl
      if maxCounter < new.generation then (memory, .error (.raised .overflowError))
      else
        (memory, .ok ({ db with
          endpoints := Dict.set db.endpoints (binding.groupId, binding.memberId) new },
          new.incarnation))

/-- `_held` -/
def held (db : Db T) (memory : Memory) (binding : CallerBinding) :
    Memory × Mail (EndpointRow T × String) :=
  match current db memory binding true with
  | (memory, .error e) => (memory, .error e)
  | (memory, .ok (some row, some mine)) => (memory, .ok (row, mine))
  | (memory, .ok _) => (memory, .error fenced)

/-- `heartbeat` -/
def heartbeat (db : Db T) (memory : Memory) (binding : CallerBinding) (now : T) (leaseTtl : Nat) :
    Memory × Mail (Db T) :=
  match held db memory binding with
  | (memory, .error e) => (memory, .error e)
  | (memory, .ok _) => (memory, .ok (renew db binding now leaseTtl))

/-- `confirm_enrollment`: publish ownership in memory, after the transaction committed. -/
def confirmEnrollment (memory : Memory) (binding : CallerBinding) (incarnation : String) : Memory :=
  { memory with
    incarnations := Dict.set memory.incarnations (ownershipKey binding) incarnation }

/-- `receiver_incarnation`: the incarnation that may fetch and acknowledge, renewed. -/
def receiverIncarnation (db : Db T) (memory : Memory) (binding : CallerBinding) (now : T)
    (leaseTtl : Nat) (renews : Bool) : Memory × Mail (Db T × String) :=
  match held db memory binding with
  | (memory, .error e) => (memory, .error e)
  | (memory, .ok (_, mine)) =>
      (memory, .ok (if renews then renew db binding now leaseTtl else db, mine))

/-- `touch`: renew a current process, else do nothing; a displaced one is refused for a send. -/
def touch (db : Db T) (memory : Memory) (binding : CallerBinding) (now : T) (leaseTtl : Nat)
    (refuseDisplaced : Bool) : Memory × Mail (Db T) :=
  if !refuseDisplaced then
    let row := fetchRow db binding
    if row.isSome && (memory.mine binding).isSome && !isDisplaced memory binding row then
      (memory, .ok (renew db binding now leaseTtl))
    else (memory, .ok db)
  else
    match current db memory binding false with
    | (memory, .error e) => (memory, .error e)
    | (memory, .ok (row, mine)) =>
        (memory, .ok (if row.isSome && mine.isSome then renew db binding now leaseTtl else db))

/-- `holds_endpoint` -/
def holdsEndpoint (memory : Memory) (binding : CallerBinding) : Bool :=
  (memory.mine binding).isSome && !memory.displaced.contains (ownershipKey binding)

end

end TrwMcp.Comms
