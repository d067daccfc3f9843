import TrwMcp.Comms.AhrLog

/-!
# The mailbox tables

One SQLite file: groups, endpoints, admissions, milestones, handoff reports, refusal counters and
the AHR event log. A table with a primary key is a dictionary in the order of insertion, so its
uniqueness is part of the type's operations: an `INSERT` that would break it is a fault.

Group time is a float of seconds. Only its order, the addition of a whole number of seconds, the
one-minute window and the conversion to a calendar instant are used; `Clock` has those.
-/

namespace TrwMcp.Comms

open Handoff Lib

/-! ## Group time -/

/-- Non-negative finite floats of seconds, as far as the mailbox computes with them. -/
class Clock (T : Type) extends LinearOrder T where
  /-- `0.0` -/
  zero : T
  /-- `t + float(seconds)`, at most the largest finite float -/
  plus : T → Nat → T
  /-- `now - t < 60` -/
  recent : T → T → Bool
  /-- `datetime.fromtimestamp(t, UTC)`, which refuses a year past 9999 -/
  fromTimestamp : T → Py Instant
  /-- `dt.timestamp() > t` -/
  timestampAfter : Instant → T → Bool
  zero_le : ∀ t, zero ≤ t
  le_plus : ∀ t n, t ≤ plus t n
  /-- rounding keeps the order of differences -/
  recent_later : ∀ t u now, t ≤ u → u ≤ now → recent now t → recent now u
  recent_earlier : ∀ t now later, t ≤ now → now ≤ later → recent later t → recent now t
  fromTimestamp_mono : ∀ t u a b, t ≤ u → fromTimestamp t = .ok a → fromTimestamp u = .ok b → a ≤ b

/-- The year a day falls in, counted from the first day of year 1. -/
def yearOfDay (day : Nat) : Nat :=
  let n400 := day / 146097
  let day := day % 146097
  let n100 := min 3 (day / 36524)
  let day := day - n100 * 36524
  let n4 := day / 1461
  let day := day % 1461
  n400 * 400 + n100 * 100 + n4 * 4 + min 3 (day / 365) + 1

/-- `n` in decimal, padded with zeros to `width`. -/
def padded (width n : Nat) : String :=
  let ds := toString n
  String.ofList (List.replicate (width - ds.length) '0') ++ ds

/-- `strftime("%Y-%m-%dT%H:%M:%S.%fZ")` -/
def isoText (t : Instant) : String :=
  let seconds := t / 1000000
  let day := seconds / 86400
  let clock := seconds % 86400
  let year := yearOfDay day
  let rest := day - daysBeforeYear year
  let month := ((List.range 12).filter fun m => daysBeforeMonth year (m + 1) ≤ rest).length
  let dayOfMonth := rest - daysBeforeMonth year month + 1
  toString year ++ "-" ++ padded 2 month ++ "-" ++ padded 2 dayOfMonth ++ "T" ++
    padded 2 (clock / 3600) ++ ":" ++ padded 2 (clock / 60 % 60) ++ ":" ++ padded 2 (clock % 60) ++
    "." ++ padded 6 (t % 1000000) ++ "Z"

example : (instant "2024-02-29T23:59:58.000123Z").toOption.map isoText =
    some "2024-02-29T23:59:58.000123Z" := by decide

/-- `iso` -/
def iso {T : Type} [Clock T] (now : T) : Py String := do return isoText (← Clock.fromTimestamp now)

/-! ## Refusals -/

/-- How an operation fails. A refusal rolls the action back and is counted; anything else rolls the
whole transaction back. -/
inductive Fault where
  /-- `AdmissionError`, `EndpointError` or `PageError`, by its reason -/
  | refused (reason : String)
  /-- a `StoreError`, or a `sqlite3.DatabaseError` turned into one: `storage_corrupt` -/
  | corrupt (detail : String)
  | raised (e : PyErr)
  deriving DecidableEq, Repr

/-- A mailbox computation. -/
abbrev Mail := Except Fault

/-- A Python computation whose exceptions nothing catches. -/
def uncaught {α : Type} (x : Py α) : Mail α :=
  match x with
  | .ok a => .ok a
  | .error e => .error (.raised e)

theorem uncaught_eq_ok {α : Type} {x : Py α} {a : α} : uncaught x = .ok a ↔ x = .ok a := by
  cases x <;> simp [uncaught]

/-- `MAX_COUNTER`: the largest SQLite integer. -/
def maxCounter : Nat := 2 ^ 63 - 1

/-! ## Rows -/

/-- An admission row's lifecycle: pending, then one terminal state. -/
inductive MessageState where
  | pending | acked | expired
  deriving DecidableEq, Repr

/-- `MILESTONE_FACTS` -/
inductive Fact where
  | admitted | fetchPrepared | acked | expired | accepted | reported | completed
  deriving DecidableEq, Repr

section

variable (T : Type)

structure Group where
  formationId : String
  manifestPath : String
  createdAt : T
  groupTime : T
  closed : Bool
  groupLimit : Nat
  bodyLimit : Nat
  outstandingLimit : Nat
  rateLimit : Nat
  charge : Nat
  bodyBudget : Nat
  deriving DecidableEq

structure EndpointRow where
  incarnation : String
  sessionId : String
  runPath : String
  enrolledAt : T
  lastSeenAt : T
  leaseExpiresAt : T
  generation : Nat
  protocol : Nat
  deriving DecidableEq

structure Admission where
  groupId : String
  senderMemberId : String
  requestKey : String
  recipientMemberId : String
  kind : String
  deliveryClass : String
  body : String
  recipientIncarnation : String
  admittedAt : T
  state : MessageState
  expiresAt : T
  deliveryCount : Nat
  canonicalSha256 : String
  traceparent : Option String
  deriving DecidableEq

structure AhrRow where
  handoffId : String
  seq : Nat
  messageId : String
  eventId : String
  event : String
  actor : String
  at_ : String
  subject : String
  eventDigest : String
  eventDoc : ByteArray
  record : Option ByteArray
  deriving DecidableEq

/-- The mailbox. Each table is keyed by its primary key, in the order its rows were inserted. -/
structure Db where
  groups : Dict String (Group T) := []
  /-- (group, member) -/
  endpoints : Dict (String × String) (EndpointRow T) := []
  /-- message id; the position is the rowid -/
  admissions : Dict String (Admission T) := []
  /-- (message, fact) -/
  milestones : Dict (String × Fact) T := []
  /-- message ↦ `next_read`, `reported_at` -/
  handoffReports : Dict String (String × T) := []
  /-- (group, reason) -/
  refusalCounts : Dict (String × String) Nat := []
  ahrEvents : List AhrRow := []
  /-- Not a table, and nothing reads it: the log the writer had when it wrote a handoff's last row. -/
  written : Dict String AhrLog := []

end

/-! ## Statements -/

section

variable {T : Type}

/-- `INSERT INTO milestones`; the primary key refuses a second row. -/
def insertMilestone (db : Db T) (messageId : String) (fact : Fact) (now : T) : Mail (Db T) :=
  if Dict.has db.milestones (messageId, fact) then
    throw (.corrupt "UNIQUE constraint failed: milestones.message_id, milestones.fact")
  else pure { db with milestones := Dict.set db.milestones (messageId, fact) now }

/-- `INSERT OR IGNORE INTO milestones` -/
def insertMilestoneOrIgnore (db : Db T) (messageId : String) (fact : Fact) (now : T) : Db T :=
  { db with milestones := (Dict.setDefault db.milestones (messageId, fact) now).2 }

/-- The facts recorded on a message. -/
def factAt (db : Db T) (messageId : String) (fact : Fact) : Option T :=
  Dict.lookup db.milestones (messageId, fact)

/-- `UPDATE groups SET ... WHERE group_id=?` -/
def updateGroup (db : Db T) (groupId : String) (f : Group T → Group T) : Db T :=
  { db with groups := Dict.mapValues (fun k g => if k = groupId then f g else g) db.groups }

/-- `UPDATE admissions SET ... WHERE message_id=?` -/
def updateAdmission (db : Db T) (messageId : String) (f : Admission T → Admission T) : Db T :=
  { db with
    admissions := Dict.mapValues (fun k a => if k = messageId then f a else a) db.admissions }

/-- `INSERT INTO ahr_events`; the two keys refuse a second row. -/
def insertAhrEvent (db : Db T) (row : AhrRow) : Mail (Db T) :=
  if db.ahrEvents.any fun r => r.handoffId == row.handoffId &&
      (r.seq == row.seq || r.eventId == row.eventId) then
    throw (.corrupt "UNIQUE constraint failed: ahr_events")
  else pure { db with ahrEvents := db.ahrEvents ++ [row] }

end

end TrwMcp.Comms
