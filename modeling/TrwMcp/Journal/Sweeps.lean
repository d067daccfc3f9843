import TrwMcp.Journal.Records

/-!
# The sweeps over the learn journal

Any number of drains sweep one directory, each in single steps: it reads the records one by one,
then claims, replays and disposes of them in turn. The attempt a replay is booked as comes from the
record as it was read, and a claim keeps two drains out of one replay, not out of one count.
-/

namespace TrwMcp.Journal.Sweeps

open Lib

/-- What the drains read and write of a record: its `attempts`, where they are an `int`. -/
structure Pending where
  attempts : Option Int
  deriving DecidableEq

/-- `_record_attempts` -/
def recordAttempts (record : Pending) : Nat := (record.attempts.getD 0).toNat

/-- The counts of a sweep under way. -/
structure Tally where
  recovered : Nat := 0
  deadLettered : Nat := 0
  retained : Nat := 0
  attempted : Nat := 0
  contended : Nat := 0

/-- The counts a sweep returns; one the code leaves out is 0. -/
structure DrainResult where
  pending : Nat
  recovered : Nat
  deadLettered : Nat
  retained : Nat
  contended : Nat
  deferred : Nat

/-- Where a sweep of `drain_pending` stands. From `claimed` to `releasing` it holds the claim of the
record `i`. -/
inductive Stage (I : Type) where
  | idle
  | listing (names : List I) (read : List (I × Pending))
  | looping (todo : List (I × Pending))
  | claimed (i : I) (record : Pending) (todo : List (I × Pending))
  | replaying (i : I) (record : Pending) (todo : List (I × Pending))
  | moving (i : I) (record : Pending) (todo : List (I × Pending))
  | booking (i : I) (record : Pending) (todo : List (I × Pending))
  | releasing (i : I) (todo : List (I × Pending))

structure Sweep (I : Type) where
  stage : Stage I := .idle
  limit : Int := 0
  pending : Nat := 0
  tally : Tally := {}

/-- The directory, the claims, the drains. `failures` and `results` are not in the files: the
replays of a record that failed in the ordinary way, the counts the sweeps returned. -/
structure Backlog (D I : Type) where
  dir : I → Option Pending
  claims : I → Option D
  sweeps : D → Sweep I
  failures : I → Nat
  results : List DrainResult

/-- The steps; a flag says what the file system, the clock and the other claimants answer. -/
inductive Deed (I : Type) where
  | start (names : List I) (limit : Int)
  | read (readable : Bool)
  | listed
  | next (expired granted : Bool)
  | check
  | replayed (out : ReplayEnd) (consumes : Bool)
  | move (moved : Bool)
  | book (written : Bool)
  | release

/-- A failure that is neither a deterministic refusal nor the rate limit. -/
def isOrdinary : ReplayEnd → Bool
  | .raised _ _ deterministic => !deterministic
  | .returned status => decide (status ∉ deterministicStatuses ∧ status ≠ rateLimited)

/-- The counts `drain_pending` returns. -/
def Sweep.result {I : Type} (sweep : Sweep I) : DrainResult where
  pending := sweep.pending
  recovered := sweep.tally.recovered
  deadLettered := sweep.tally.deadLettered
  retained := sweep.tally.retained
  contended := sweep.tally.contended
  deferred := sweep.pending - sweep.tally.attempted - sweep.tally.contended

section

variable {D I : Type} [DecidableEq D] [DecidableEq I]

def Backlog.put (w : Backlog D I) (d : D) (sweep : Sweep I) : Backlog D I :=
  { w with sweeps := Function.update w.sweeps d sweep }

/-- The sweep returns. -/
def Backlog.finish (w : Backlog D I) (d : D) : Backlog D I :=
  { w.put d {} with results := w.results ++ [(w.sweeps d).result] }

/-- The stage after a replay that was classified. -/
def disposed (i : I) (record : Pending) (todo : List (I × Pending)) : Disposition → Stage I
  | .recovered => .releasing i todo
  | .deadLettered _ => .moving i record todo
  | .retained reason => if reason = rateLimited then .releasing i todo else .booking i record todo

/-- The counts after a replay that was classified. -/
def Tally.disposed (tally : Tally) : Disposition → Tally
  | .recovered => { tally with recovered := tally.recovered + 1 }
  | .deadLettered _ => tally
  | .retained reason =>
      if reason = rateLimited then { tally with retained := tally.retained + 1 } else tally

/-- A step of the drain `d`, whose sweeps have the budget `maxAttempts`. -/
def act (maxAttempts : Int) (w : Backlog D I) (d : D) (deed : Deed I) : Option (Backlog D I) :=
  let sweep := w.sweeps d
  let tally := sweep.tally
  match deed with
  | .start names limit =>
      match sweep.stage with
      | .idle => some (w.put d { stage := .listing names [], limit })
      | _ => none
  | .read readable =>
      match sweep.stage with
      | .listing (i :: names) read =>
          -- `read_record` gives nothing, or a record the scan skips
          match (if readable then w.dir i else none) with
          | some record => some (w.put d { sweep with stage := .listing names (read ++ [(i, record)]) })
          | none => some (w.put d { sweep with stage := .listing names read })
      | _ => none
  | .listed =>
      match sweep.stage with
      | .listing [] read =>
          if read = [] then some (w.put d {})
          else some (w.put d { stage := .looping read, limit := sweep.limit, pending := read.length })
      | _ => none
  | .next expired granted =>
      match sweep.stage with
      | .looping [] => some (w.finish d)
      | .looping ((i, record) :: todo) =>
          if sweep.limit ≤ tally.attempted ∨ expired = true then some (w.finish d)
          else if granted ∧ w.claims i = none then
            some { w.put d { sweep with stage := .claimed i record todo } with
              claims := Function.update w.claims i (some d) }
          else
            some (w.put d { sweep with
              stage := .looping todo
              tally := { tally with contended := tally.contended + 1 } })
      | _ => none
  | .check =>
      match sweep.stage with
      | .claimed i record todo =>
          if (w.dir i).isSome then
            some (w.put d { sweep with
              stage := .replaying i record todo
              tally := { tally with attempted := tally.attempted + 1 } })
          else
            some (w.put d { sweep with
              stage := .releasing i todo
              tally := { tally with contended := tally.contended + 1 } })
      | _ => none
  | .replayed out consumes =>
      match sweep.stage with
      | .replaying i record todo =>
          let dir := if consumes then Function.update w.dir i none else w.dir
          let disposition :=
            classifyReplay (dir i).isNone out (recordAttempts record + 1) maxAttempts
          some { w.put d { sweep with
              stage := disposed i record todo disposition
              tally := tally.disposed disposition } with
            dir := dir
            failures :=
              if (dir i).isSome ∧ isOrdinary out then
                Function.update w.failures i (w.failures i + 1)
              else w.failures }
      | _ => none
  | .move moved =>
      match sweep.stage with
      | .moving i record todo =>
          if moved then
            some { w.put d { sweep with
                stage := .releasing i todo
                tally := { tally with deadLettered := tally.deadLettered + 1 } } with
              dir := Function.update w.dir i none }
          else some (w.put d { sweep with stage := .booking i record todo })
      | _ => none
  | .book written =>
      match sweep.stage with
      | .booking i record todo =>
          let booked : Pending := ⟨some ((recordAttempts record : Int) + 1)⟩
          some { w.put d { sweep with
              stage := .releasing i todo
              tally := { tally with retained := tally.retained + 1 } } with
            dir := if written then Function.update w.dir i (some booked) else w.dir }
      | _ => none
  | .release =>
      match sweep.stage with
      | .releasing i todo =>
          some { w.put d { sweep with stage := .looping todo } with
            claims := Function.update w.claims i none }
      | _ => none

/-- One step of some drain. -/
def Step (maxAttempts : Int) (w : Backlog D I) (x : D × Deed I) (w' : Backlog D I) : Prop :=
  act maxAttempts w x.1 x.2 = some w'

/-- Nobody sweeps yet. -/
def Backlog.start (dir : I → Option Pending) : Backlog D I where
  dir := dir
  claims _ := none
  sweeps _ := {}
  failures _ := 0
  results := []

end

end TrwMcp.Journal.Sweeps
