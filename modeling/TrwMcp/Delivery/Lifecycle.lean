import TrwMcp.Delivery.Steps

/-!
# The life of an operation

The mutations of the journal on one operation, its step rows and its link in the deferred queue, in
any order and from any number of threads: each of them is one transaction.
-/

namespace TrwMcp.Delivery

open Lib

/-! ## The deferred queue -/

inductive QueueState where
  | queued
  | attached
  | running
  | done
  | cancelled
  deriving DecidableEq

/-- A deferred-batch link. -/
structure QueueLink where
  operationId : String
  deferredDigest : String
  state : QueueState
  enqueuedUtcMs : Int
  deriving DecidableEq

/-- `terminal_queue_state` -/
def terminalQueueState (state : OperationState) : QueueState :=
  if state = .cancelled then .cancelled else .done

/-- The rows of one operation, the links of all of them, and the operation this one is attached
to. -/
structure Lifecycle (J : Type) where
  journal : JournalWorld J
  queue : List QueueLink := []
  attachedTo : String := ""

section

variable {J : Type}

/-- `update_queue_state` -/
def Lifecycle.updateQueueState (w : Lifecycle J) (id : String) (state : QueueState) :
    Lifecycle J :=
  { w with
      queue := w.queue.map fun link => if link.operationId = id then { link with state } else link }

/-- What `reap_orphaned_queue_links` makes of one link. -/
def Store.reap (s : Store) (now staleLeaseMs : Int) (alive : Int → Bool) (link : QueueLink) :
    QueueLink :=
  if link.state ≠ .queued then link
  else
    match s.operation link.operationId with
    | none => { link with state := .cancelled }
    | some op =>
        if op.state.isFinished then { link with state := terminalQueueState op.state }
        else if op.leaseValid now alive || decide (now - link.enqueuedUtcMs < staleLeaseMs) then
          link
        else { link with state := .cancelled }

/-- The link `enqueue_deferred` would insert, behind the links it keeps; nothing is what it raises,
and then nothing of it is committed. -/
def Lifecycle.enqueued (w : Lifecycle J) (operationId deferredDigest : String)
    (now staleLeaseMs : Int) (queueDepthMax : Nat) (alive : Int → Bool) :
    Option (List QueueLink × Option QueueLink) :=
  let queue := w.queue.map (w.journal.store.reap now staleLeaseMs alive)
  let found := queue.find? fun link =>
    decide (link.state = .running ∨ link.state = .attached) && link.deferredDigest = deferredDigest
  let depth := queue.countP fun link => link.state = .queued
  if found.isNone && decide (queueDepthMax ≤ depth) then none
  -- the identifier is unique among the links
  else if queue.any fun link => link.operationId = operationId then none
  else
    let state := if found.isSome then QueueState.attached else QueueState.queued
    some (queue ++ [⟨operationId, deferredDigest, state, now⟩], found)

end

/-! ## Steps -/

/-- The states the callers of `mark_operation_state` pass. -/
def markedStates : List OperationState :=
  [.blocked, .criticalComplete, .deferredQueued, .deferredRunning, .cancelled, .failed, .succeeded]

inductive LifeDeed where
  | beginStep (effectId : String) (pid now staleLeaseMs : Int)
  | finalizeStep (effectId : String) (state : StepState) (findingCode : String) (now : Int)
  | markOperationState (state : OperationState) (now : Int)
  /-- an operation, this one or another, goes into the queue -/
  | enqueueDeferred (operationId deferredDigest : String) (now staleLeaseMs : Int)
      (queueDepthMax : Nat) (alive : Int → Bool)
  | recoverAfterCrash (now : Int) (alive : Int → Bool)
  | takeover (auth : Authority) (newOwner : String) (newPid now staleLeaseMs : Int)
      (alive : Int → Bool)
  | resume (auth : Authority) (newPid now staleLeaseMs : Int) (alive : Int → Bool)
  | reconcileEffect (auth : Authority) (effectId : String) (applied : Bool) (now : Int)
  | requestCancel (auth : Authority) (now : Int)

section

variable {J : Type} (id : String) (digests : Digests)

/-- The operation's row. -/
def Lifecycle.row (w : Lifecycle J) : Option Operation := w.journal.store.operation id

def Lifecycle.inState (w : Lifecycle J) (state : OperationState) : Bool :=
  (w.row id).any fun op => op.state = state

/-- The operation's link. -/
def Lifecycle.links (w : Lifecycle J) : List QueueLink :=
  w.queue.filter fun link => link.operationId = id

/-- A transaction that retires the link with the operation it cancels. -/
def Lifecycle.retired (w : Lifecycle J) (cancelled : Bool) : Lifecycle J :=
  if cancelled then w.updateQueueState id .cancelled else w

/-- `finalize_step`; nothing is what it raises. -/
def Lifecycle.finalizeStep (w : Lifecycle J) (effectId : String) (state : StepState)
    (findingCode : String) (now : Int) : Option (Lifecycle J) :=
  if state = .started ∨ state = .notStarted then none
  else
    (w.journal.finalizeStep id effectId state findingCode now).map fun journal =>
      let finalized := { w with journal }
      finalized.retired id (w.inState id .cancelRequested && finalized.inState id .cancelled)

/-- `mark_operation_state` -/
def Lifecycle.markOperationState (w : Lifecycle J) (state : OperationState) (now : Int) :
    Lifecycle J :=
  if (w.row id).isNone then w
  else
    let marked := { w with journal := w.journal.markOperationState id state now }
    if state.isFinished then marked.updateQueueState id (terminalQueueState state) else marked

/-- `enqueue_deferred` -/
def Lifecycle.enqueueDeferred (w : Lifecycle J) (operationId deferredDigest : String)
    (now staleLeaseMs : Int) (queueDepthMax : Nat) (alive : Int → Bool) : Lifecycle J :=
  match w.enqueued operationId deferredDigest now staleLeaseMs queueDepthMax alive with
  | none => w
  | some (queue, none) => { w with queue }
  | some (queue, some found) =>
      if operationId = id then
        { w with
            queue
            attachedTo := found.operationId
            -- the row is replaced at the revision it had
            journal := w.journal.updateOp id fun op => { op with updatedUtcMs := now } }
      else { w with queue }

/-- `_recover_locked` -/
@[grind =] def Lifecycle.recoverAfterCrash (w : Lifecycle J) (now : Int) (alive : Int → Bool) :
    Lifecycle J :=
  match w.row id with
  | none => w
  | some op =>
      if op.leaseValid now alive then w
      else { w with journal := w.journal.applyCrashRecovery id now }

/-- `request_cancel` -/
@[grind =] def Lifecycle.requestCancel (w : Lifecycle J) (auth : Authority) (now : Int) : Lifecycle J :=
  match w.row id with
  | none => w
  | some op =>
      if !auth.holds digests op || op.state.isFinished then w
      else
        { w with journal := w.journal.requestCancel id digests auth now }.updateQueueState id
          .cancelled

/-- One transaction; what is refused changes nothing. -/
@[grind =] def Lifecycle.exec (w : Lifecycle J) : LifeDeed → Lifecycle J
  | .beginStep effectId pid now staleLeaseMs =>
      { w with journal := (w.journal.beginStep id effectId pid now staleLeaseMs).getD w.journal }
  | .finalizeStep effectId state findingCode now =>
      (w.finalizeStep id effectId state findingCode now).getD w
  | .markOperationState state now =>
      if state ∈ markedStates then w.markOperationState id state now else w
  | .enqueueDeferred operationId deferredDigest now staleLeaseMs queueDepthMax alive =>
      w.enqueueDeferred id operationId deferredDigest now staleLeaseMs queueDepthMax alive
  | .recoverAfterCrash now alive => w.recoverAfterCrash id now alive
  | .takeover auth newOwner newPid now staleLeaseMs alive =>
      { w with
          journal := w.journal.takeover id digests auth newOwner newPid now staleLeaseMs alive }
  | .resume auth newPid now staleLeaseMs alive =>
      { w with journal := w.journal.resume id digests auth newPid now staleLeaseMs alive }
  | .reconcileEffect auth effectId applied now =>
      { w with journal := w.journal.reconcileEffect id digests auth effectId applied now }
  | .requestCancel auth now => w.requestCancel id digests auth now

/-- An operation as its claim left it. -/
def Lifecycle.claimed (op : Operation) : Lifecycle J :=
  { journal := { store := { operations := [op] }, handles := fun _ => none } }

end

end TrwMcp.Delivery
