import TrwMcp.Delivery.Claim
import TrwMcp.Lib.Dict

/-!
# The delivery journal

A claimed operation has a row a step. A journal handle commits `started` before it enters an effect
and the outcome after it. A second call is let in by a resume grant, a recovery event that is read
and not consumed, with the step rows as they were when the handle was opened; `begin_step` does not
look at the row it replaces.
-/

namespace TrwMcp.Delivery

open Lib

/-! ## Effects -/

inductive ReplayClass where
  | keyedIdempotent
  | postconditionProvable
  | nonReplayable
  | diagnostic
  | coordination
  deriving DecidableEq

/-- `_CENSUS`: the effects with their replay classes. -/
def deliveryEffectRegistry : List (String × ReplayClass) :=
  [("S01", .postconditionProvable), ("S02", .postconditionProvable), ("S03", .keyedIdempotent),
    ("S04", .nonReplayable), ("S05", .postconditionProvable), ("S06", .postconditionProvable),
    ("S07", .keyedIdempotent), ("S08", .nonReplayable), ("S09", .keyedIdempotent),
    ("S10", .nonReplayable), ("S11", .keyedIdempotent), ("S12", .keyedIdempotent),
    ("S13", .diagnostic), ("S14", .postconditionProvable), ("S15", .postconditionProvable),
    ("S16", .nonReplayable), ("S17", .postconditionProvable), ("S18", .postconditionProvable),
    ("S19", .postconditionProvable), ("S20", .keyedIdempotent), ("S22", .postconditionProvable),
    ("S21", .diagnostic), ("S23", .postconditionProvable), ("S23b", .postconditionProvable),
    ("D00", .coordination), ("D01", .nonReplayable), ("D04", .postconditionProvable),
    ("D05", .postconditionProvable), ("D06", .postconditionProvable), ("D07", .nonReplayable),
    ("D08", .postconditionProvable), ("D11", .coordination), ("D12", .nonReplayable),
    ("D13", .keyedIdempotent), ("D14", .nonReplayable), ("D15", .postconditionProvable),
    ("D16", .nonReplayable), ("D17", .nonReplayable), ("D18", .keyedIdempotent),
    ("D19", .keyedIdempotent), ("D20", .postconditionProvable), ("D21", .keyedIdempotent),
    ("D22", .postconditionProvable), ("D23", .postconditionProvable), ("D24", .keyedIdempotent),
    ("D25", .nonReplayable)]

def alwaysReevaluateEffects : List String := ["S06", "S07", "S23", "S23b"]

/-- `is_auto_replayable_after_started` -/
def isAutoReplayableAfterStarted (effectId : String) : Bool :=
  Dict.lookup deliveryEffectRegistry effectId ≠ some .nonReplayable

inductive StepState where
  | notStarted
  | started
  | succeeded
  | failed
  | indeterminate
  deriving DecidableEq

/-- A step row; its proof and its disposition are read by nothing here. -/
structure StepRecord where
  state : StepState
  attempt : Nat
  findingCode : String
  deriving DecidableEq

inductive RecoveryAction where
  | takeoverPending
  | resume
  | reconcileApplied
  | reconcileNotApplied
  | requestCancel
  deriving DecidableEq

def confirmedNotApplied : String := "confirmed_not_applied"

def deliveryJournalOwner : String := "trw_deliver"

def maxReasonChars : Nat := 500

def maxEvidenceRefChars : Nat := 1024

/-! ## Handles -/

/-- A `DeliverJournal`: the process, the rows a grant showed it, and its open boundaries. -/
structure Journal where
  pid : Int
  resumeSteps : Option (Dict String StepRecord)
  running : List String := []

/-- A call that has claimed: one that found the operation there, or one with a journal. -/
inductive Handle where
  | existing (pid : Int)
  | opened (journal : Journal)

/-- What a journal does with an effect. -/
inductive Verdict where
  | run
  | skip
  | record (findingCode : String)
  deriving DecidableEq

/-- `_skip_completed` -/
def Journal.verdict (journal : Journal) (effectId : String) : Verdict :=
  if effectId ∈ alwaysReevaluateEffects then .run
  else
    match journal.resumeSteps.bind (Dict.lookup · effectId) with
    | none => .run
    | some prior =>
        if prior.state = .failed then
          if prior.findingCode = confirmedNotApplied then .run else .skip
        else if prior.state = .succeeded then .record prior.findingCode
        else .run

/-! ## The operation -/

/-- The rows of one identifier, and the calls. The effects entered, the ones an operator confirmed
were not applied, and the number of times a claim came to `CLAIMED` are stored by nothing. -/
structure JournalWorld (J : Type) where
  store : Store := {}
  steps : Dict String StepRecord := []
  events : List RecoveryAction := []
  handles : J → Option Handle
  entered : List String := []
  notApplied : List String := []
  claims : Nat := 0

section

variable {J : Type} (id : String)

/-- `replace_operation` -/
def JournalWorld.updateOp (w : JournalWorld J) (change : Operation → Operation) : JournalWorld J :=
  { w with
      store :=
        { w.store with
            operations := w.store.operations.map fun op =>
              if op.operationId = id then change op else op } }

/-- `begin_step`; nothing is what it raises. -/
def JournalWorld.beginStep (w : JournalWorld J) (effectId : String) (pid : Int)
    (now staleLeaseMs : Int) : Option (JournalWorld J) :=
  if !Dict.has deliveryEffectRegistry effectId then none
  else
    match w.store.operation id with
    | none => none
    | some op =>
        if op.state.isFinished then none
        else if op.state = .cancelRequested then none
        else
          let attempt := ((Dict.lookup w.steps effectId).map (·.attempt)).getD 0 + 1
          some
            { w.updateOp id fun op =>
                { op with
                    state := if op.state = .pending then .running else op.state
                    revision := op.revision + 1
                    updatedUtcMs := now
                    leaseOwner := deliveryJournalOwner
                    leasePid := if pid = 0 then op.leasePid else pid
                    leaseExpiryUtcMs := now + staleLeaseMs } with
              steps := Dict.set w.steps effectId ⟨.started, attempt, ""⟩ }

/-- `finalize_step`; a step that ends the last effect of a cancellation ends the operation. -/
def JournalWorld.finalizeStep (w : JournalWorld J) (effectId : String) (state : StepState)
    (findingCode : String) (now : Int) : Option (JournalWorld J) :=
  match w.store.operation id with
  | none => none
  | some op =>
      let attempt := ((Dict.lookup w.steps effectId).map (·.attempt)).getD 1
      let steps := Dict.set w.steps effectId ⟨state, attempt, findingCode⟩
      let remainingStarted := steps.any fun m => m.1 ≠ effectId && m.2.state = .started
      let cancelled := op.state = .cancelRequested && !remainingStarted
      some
        { w.updateOp id fun op =>
            { op with
                state := if cancelled then .cancelled else op.state
                revision := op.revision + 1
                updatedUtcMs := now
                terminalUtcMs := if cancelled then now else op.terminalUtcMs } with
          steps }

/-- `mark_operation_state` -/
def JournalWorld.markOperationState (w : JournalWorld J) (state : OperationState) (now : Int) :
    JournalWorld J :=
  w.updateOp id fun op =>
    { op with
        state
        revision := op.revision + 1
        updatedUtcMs := now
        terminalUtcMs := if state.isFinished then now else op.terminalUtcMs }

/-- `read_resume_grant` -/
def JournalWorld.readResumeGrant (w : JournalWorld J) (pid now : Int) :
    Option (Dict String StepRecord) :=
  match w.store.operation id with
  | none => none
  | some op =>
      if op.state.isFinished then none
      else if w.events.getLast? ≠ some .resume then none
      else if op.leaseOwner ≠ deliveryJournalOwner ∨ op.leasePid ≠ pid then none
      else if op.leaseExpiryUtcMs = 0 ∨ op.leaseExpiryUtcMs ≤ now then none
      else some w.steps

/-! ## Recovery -/

/-- The capability, the revision and the reason of a recovery action. -/
structure Authority where
  capabilityToken : String
  expectedRevision : Nat
  reason : String
  evidenceRef : String := ""

/-- `_authorize_recovery` -/
def Authority.holds (digests : Digests) (auth : Authority) (op : Operation) : Bool :=
  !auth.reason.toList.all Regex.isSpace && decide (auth.reason.length ≤ maxReasonChars) &&
    decide (auth.evidenceRef.length ≤ maxEvidenceRefChars) &&
      verifyCapability digests auth.capabilityToken op && auth.expectedRevision = op.revision

/-- `lease_takeover_refusal`, where it refuses nothing; `alive` is `process_alive`. -/
def Operation.takeable (op : Operation) (now staleLeaseMs : Int) (selfOwnedPid : Int)
    (alive : Int → Bool) : Bool :=
  !(op.leaseExpiryUtcMs ≠ 0 && decide (now < op.leaseExpiryUtcMs)) &&
    !decide ((if op.leaseExpiryUtcMs ≠ 0 then now - op.leaseExpiryUtcMs else now) < staleLeaseMs) &&
      !(op.leasePid ≠ 0 && op.leasePid ≠ selfOwnedPid && alive op.leasePid)

/-- A started step after a crash. -/
def classifyRestart (effectId : String) (step : StepRecord) : StepRecord :=
  if step.state = .started ∧ isAutoReplayableAfterStarted effectId = false then
    { step with state := .indeterminate, findingCode := "crash_nonreplayable" }
  else step

/-- `apply_crash_recovery_locked` -/
def JournalWorld.applyCrashRecovery (w : JournalWorld J) (now : Int) : JournalWorld J :=
  let crashed := w.steps.any fun m =>
    m.2.state = .started && !isAutoReplayableAfterStarted m.1
  { w.updateOp id fun op =>
      { op with
          state := if crashed then .indeterminate else op.state
          revision := op.revision + 1
          updatedUtcMs := now
          leaseOwner := ""
          leasePid := 0
          leaseExpiryUtcMs := 0 } with
    steps := Dict.mapValues classifyRestart w.steps
    events := w.events ++ [.reconcileNotApplied] }

/-- `_lease_valid` -/
def Operation.leaseValid (op : Operation) (now : Int) (alive : Int → Bool) : Bool :=
  op.leaseExpiryUtcMs ≠ 0 && decide (now < op.leaseExpiryUtcMs) && alive op.leasePid

variable (digests : Digests)

/-- `resume`: classify, and grant unless a step is unsettled by this classification or still
started. -/
@[grind =] def JournalWorld.resume (w : JournalWorld J) (auth : Authority) (newPid now staleLeaseMs : Int)
    (alive : Int → Bool) : JournalWorld J :=
  match w.store.operation id with
  | none => w
  | some op =>
      if !auth.holds digests op || op.state.isFinished || op.state = .cancelRequested ||
          !op.takeable now staleLeaseMs newPid alive then w
      else
        let classified := if op.leaseValid now alive then w else w.applyCrashRecovery id now
        let indeterminate := !op.leaseValid now alive &&
          w.steps.any fun m => m.2.state = .started && !isAutoReplayableAfterStarted m.1
        let stillStarted := classified.steps.any fun m => m.2.state = .started
        if indeterminate || stillStarted then classified
        else
          { classified.updateOp id fun op =>
              { op with
                  revision := op.revision + 1
                  updatedUtcMs := now
                  leaseOwner := deliveryJournalOwner
                  leasePid := newPid
                  leaseExpiryUtcMs := now + staleLeaseMs } with
            events := classified.events ++ [.resume] }

/-- `takeover` -/
@[grind =] def JournalWorld.takeover (w : JournalWorld J) (auth : Authority) (newOwner : String)
    (newPid now staleLeaseMs : Int) (alive : Int → Bool) : JournalWorld J :=
  match w.store.operation id with
  | none => w
  | some op =>
      if auth.reason = "" ∨ maxReasonChars < auth.reason.length then w
      else if !verifyCapability digests auth.capabilityToken op ||
          auth.expectedRevision ≠ op.revision || !op.takeable now staleLeaseMs 0 alive then w
      else
        { w.updateOp id fun op =>
            { op with
                revision := op.revision + 1
                updatedUtcMs := now
                leaseOwner := newOwner
                leasePid := newPid
                leaseExpiryUtcMs := now + staleLeaseMs } with
          events := w.events ++ [.takeoverPending] }

/-- `reconcile_effect` -/
@[grind =] def JournalWorld.reconcileEffect (w : JournalWorld J) (auth : Authority) (effectId : String)
    (applied : Bool) (now : Int) : JournalWorld J :=
  match w.store.operation id, Dict.lookup w.steps effectId with
  | some op, some step =>
      if !auth.holds digests op || !Dict.has deliveryEffectRegistry effectId then w
      else if step.state ≠ .started ∧ step.state ≠ .indeterminate then w
      else
        { w.updateOp id fun op =>
            { op with state := .running, revision := op.revision + 1, updatedUtcMs := now } with
          steps := Dict.set w.steps effectId
            { step with
                state := if applied then .succeeded else .failed
                findingCode := if applied then "confirmed_applied" else confirmedNotApplied }
          events := w.events ++ [if applied then .reconcileApplied else .reconcileNotApplied]
          notApplied := if applied then w.notApplied else w.notApplied ++ [effectId] }
  | _, _ => w

/-- `request_cancel` -/
@[grind =] def JournalWorld.requestCancel (w : JournalWorld J) (auth : Authority) (now : Int) :
    JournalWorld J :=
  match w.store.operation id with
  | none => w
  | some op =>
      if !auth.holds digests op || op.state.isFinished then w
      else
        let hasStarted := w.steps.any fun m => m.2.state = .started
        { w.updateOp id fun op =>
            { op with
                state := if hasStarted then .cancelRequested else .cancelled
                revision := op.revision + 1
                updatedUtcMs := now
                terminalUtcMs := if hasStarted then 0 else now } with
          events := w.events ++ [.requestCancel] }

/-! ## Runs -/

/-- How an effect ended. -/
inductive Outcome where
  | succeeded
  | raised
  | refused
  deriving DecidableEq

def Outcome.state : Outcome → StepState
  | .succeeded => .succeeded
  | .raised | .refused => .failed

def Outcome.findingCode : Outcome → String
  | .refused => "override_refused"
  | .succeeded | .raised => ""

inductive JournalDeed (J : Type) where
  | claim (j : J) (t : Ticket) (salt : String) (staleLeaseMs : Int) (full : Bool)
  | readGrant (j : J) (now : Int)
  | openDeferred (j parent : J) (now : Int)
  | enter (j : J) (effectId : String) (now staleLeaseMs : Int) (enters : Bool)
  | finish (j : J) (effectId : String) (outcome : Outcome) (now : Int)
  | markState (j : J) (state : OperationState) (now : Int)
  | resume (auth : Authority) (newPid now staleLeaseMs : Int) (alive : Int → Bool)
  | takeover (auth : Authority) (newOwner : String) (newPid now staleLeaseMs : Int)
      (alive : Int → Bool)
  | reconcile (auth : Authority) (effectId : String) (applied : Bool) (now : Int)
  | cancel (auth : Authority) (now : Int)
  | maintenance (now : Int)
  | stop (j : J)

variable [DecidableEq J]

def JournalWorld.setHandle (w : JournalWorld J) (j : J) (handle : Option Handle) :
    JournalWorld J :=
  { w with handles := Function.update w.handles j handle }

/-- The journal of a call, if it has one. -/
def JournalWorld.journal (w : JournalWorld J) (j : J) : Option Journal :=
  match w.handles j with
  | some (.opened journal) => some journal
  | _ => none

/-- `run_maintenance`; the steps and the events go with the operation. -/
def JournalWorld.maintenance (w : JournalWorld J) (now : Int) : JournalWorld J :=
  let store := runMaintenance now w.store
  if (store.operation id).isSome then { w with store } else { w with store, steps := [], events := [] }

/-- A journal at an effect: it runs it, between `begin_step` and the effect it may crash, or it
leaves it. -/
def JournalWorld.enter (w : JournalWorld J) (j : J) (effectId : String) (now staleLeaseMs : Int)
    (enters : Bool) : JournalWorld J :=
  match w.journal j with
  | none => w
  | some journal =>
      match journal.verdict effectId with
      | .skip => w
      | .record findingCode => (w.finalizeStep id effectId .succeeded findingCode now).getD w
      | .run =>
          match w.beginStep id effectId journal.pid now staleLeaseMs with
          | none => w
          | some begun =>
              if enters then
                { begun.setHandle j
                    (some (.opened { journal with running := effectId :: journal.running })) with
                  entered := w.entered ++ [effectId] }
              else begun.setHandle j none

/-- One step; what cannot happen changes nothing. -/
def JournalWorld.exec (w : JournalWorld J) : JournalDeed J → JournalWorld J
  | .claim j t salt staleLeaseMs full =>
      if t.args.deliveryId = id ∧ (w.handles j).isNone then
        let (result, store) := commitClaim digests w.store t salt staleLeaseMs full
        match result.status with
        | .claimed =>
            { w.setHandle j (some (.opened ⟨t.args.pid, none, []⟩)) with
                store, claims := w.claims + 1 }
        | .existing => { w.setHandle j (some (.existing t.args.pid)) with store }
        | _ => { w with store }
      else w
  | .readGrant j now =>
      match w.handles j with
      | some (.existing pid) =>
          match w.readResumeGrant id pid now with
          | some steps => w.setHandle j (some (.opened ⟨pid, some steps, []⟩))
          | none => w.setHandle j none
      | _ => w
  | .openDeferred j parent now =>
      match w.journal parent, w.handles j with
      | some journal, none =>
          w.setHandle j (some (.opened ⟨journal.pid, w.readResumeGrant id journal.pid now, []⟩))
      | _, _ => w
  | .enter j effectId now staleLeaseMs enters => w.enter id j effectId now staleLeaseMs enters
  | .finish j effectId outcome now =>
      match w.journal j with
      | some journal =>
          if effectId ∈ journal.running then
            ((w.finalizeStep id effectId outcome.state outcome.findingCode now).getD w).setHandle j
              (some (.opened { journal with running := journal.running.erase effectId }))
          else w
      | none => w
  | .markState j state now =>
      match w.journal j with
      | some _ => w.markOperationState id state now
      | none => w
  | .resume auth newPid now staleLeaseMs alive =>
      w.resume id digests auth newPid now staleLeaseMs alive
  | .takeover auth newOwner newPid now staleLeaseMs alive =>
      w.takeover id digests auth newOwner newPid now staleLeaseMs alive
  | .reconcile auth effectId applied now => w.reconcileEffect id digests auth effectId applied now
  | .cancel auth now => w.requestCancel id digests auth now
  | .maintenance now => w.maintenance id now
  | .stop j => w.setHandle j none

end

end TrwMcp.Delivery
