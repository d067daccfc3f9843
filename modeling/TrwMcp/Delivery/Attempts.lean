import TrwMcp.Delivery.Lifecycle

/-!
# Attempts at a delivery

`trw_deliver` walks its synchronous effects, puts the deferred batch in the queue, launches it, and
walks the effects that come after the launch; the batch walks its roster and marks the operation. A
first call finds no rows, a later one the rows its resume grant shows it. What an effect comes to
reaches its row only through the context manager around it.
-/

namespace TrwMcp.Delivery

open Lib

/-! ## The effects -/

/-- The effects whose impact is `REQUIRED`. -/
def requiredEffects : List String := ["S01", "S02", "S05", "S06", "S14", "S18", "S20", "D16"]

/-- The required ones that come before the launch. -/
def criticalEffects : List String := ["S01", "S02", "S05", "S06", "S14"]

/-- What `run_trw_deliver` does before the launch. -/
inductive MainItem where
  /-- an effect in its boundary; under `_run_step` what it raises becomes an entry -/
  | step (effectId : String) (runStep : Bool)
  /-- `evaluate_delivery_gates` -/
  | gates
  | mark (state : OperationState)
  | enqueue
  deriving DecidableEq

/-- The order of the calls, with a run and without. -/
def mainPlan (hasRun skipReflect : Bool) : List MainItem :=
  [.step "S01" false, .step "S05" false, .gates] ++
    (if skipReflect then [] else [.step "S08" true]) ++
    (if hasRun then [.step "S11" true, .step "S14" false] else []) ++ [.step "S15" false] ++
    (if hasRun then [.step "S17" false, .step "S22" false] else []) ++
    [.mark .criticalComplete, .enqueue, .mark .deferredQueued]

/-- The effects after the launch. -/
inductive LateEffect where
  | mark
  | nudge
  | event
  deriving DecidableEq

def LateEffect.effectId : LateEffect → String
  | .mark => "S18"
  | .nudge => "S19"
  | .event => "S20"

/-- Where a call stands, with what is left to do. -/
inductive MainStage where
  | going (items : List MainItem)
  | running (effectId : String) (runStep : Bool) (items : List MainItem)
  /-- `S02`, inside `S01` -/
  | mirroring (items : List MainItem)
  /-- between two steps of the gates; an override was refused -/
  | gating (refused : Bool) (items : List MainItem)
  | gate (effectId : String) (refused : Bool) (items : List MainItem)
  | late (effects : List LateEffect)
  | finishing (effect : LateEffect) (effects : List LateEffect)

/-- `DEFERRED_STEPS`, by the effects; one of them has none. -/
def deferredRoster (skipIndexSync : Bool) : List String :=
  ["D01", "D25"] ++ (if skipIndexSync then [] else ["D04"]) ++
    ["D06", "D07", "D12", "D14", "D16", "D18", ""]

/-- Where the batch stands. -/
inductive BatchStage where
  | launched (skipIndexSync : Bool)
  | roster (effects : List String)
  /-- the boundary is open, and `_timed_step` looks at the cancel event -/
  | opened (effectId : String) (effects : List String)
  | running (effectId : String) (effects : List String)
  /-- `D22` -/
  | metrics
  | persisting
  /-- for `S20` -/
  | waiting
  /-- `D23` -/
  | results
  | writing
  /-- `D24` -/
  | audit
  | appending
  | closing

structure Call where
  journal : Journal
  skipIndexSync : Bool
  stage : MainStage

/-- The batch, with the number of its errors. -/
structure Batch where
  journal : Journal
  stage : BatchStage
  errors : Nat := 0

/-- The journal, the calls, the batch and its cancel event. The effects whose function returned
without raising or refusing, and the ones an operator confirmed as applied, are kept by nothing. -/
structure DeliveryWorld (C : Type) where
  life : Lifecycle Unit
  calls : C → Option Call := fun _ => none
  batch : Option Batch := none
  cancel : Bool := false
  returned : List String := []
  confirmed : List String := []

/-- What happens. -/
inductive DeliveryDeed (C : Type) where
  /-- a call finds the operation there -/
  | call (c : C) (pid now : Int) (hasRun skipReflect skipIndexSync : Bool)
  | act (c : C) (now : Int) (alive : Int → Bool)
  /-- the effect ends -/
  | finish (c : C) (outcome : Outcome) (now : Int)
  /-- `update_run_phase` comes to its mirror -/
  | mirror (c : C) (now : Int)
  | gate (c : C) (effectId : String) (now : Int)
  | gateEnd (c : C) (blocked : Bool) (now : Int)
  | stop (c : C)
  | batchAct (now : Int) (works : Bool)
  | batchFinish (outcome : Outcome) (now : Int)
  /-- the wait for `S20` is over -/
  | timeout
  | watchdog
  | crash
  | operator (deed : LifeDeed)

/-- The deeds of an operator. -/
def LifeDeed.recovers : LifeDeed → Bool
  | .recoverAfterCrash _ _ | .takeover _ _ _ _ _ _ | .resume _ _ _ _ _ | .reconcileEffect _ _ _ _
  | .requestCancel _ _ => true
  | _ => false

section

variable {C : Type} [DecidableEq C]

def DeliveryWorld.setCall (w : DeliveryWorld C) (c : C) (call : Option Call) : DeliveryWorld C :=
  { w with calls := Function.update w.calls c call }

def DeliveryWorld.goTo (w : DeliveryWorld C) (c : C) (call : Call) (stage : MainStage) :
    DeliveryWorld C :=
  w.setCall c (some { call with stage })

@[grind =] def DeliveryWorld.steps (w : DeliveryWorld C) : Dict String StepRecord := w.life.journal.steps

/-- The effect is one whose function returned. -/
def DeliveryWorld.note (w : DeliveryWorld C) (effectId : String) (outcome : Outcome) :
    DeliveryWorld C :=
  { w with returned := if outcome = .succeeded then w.returned ++ [effectId] else w.returned }

section

variable (id : String) (digests : Digests) (deferredDigest : String) (staleLeaseMs : Int)
  (queueDepthMax : Nat)

/-- The beginning of `DeliverJournal.step`: whether the effect runs; nothing is what it raises. -/
def Lifecycle.openStep (life : Lifecycle Unit) (journal : Journal) (effectId : String)
    (now : Int) : Option (Bool × Lifecycle Unit) :=
  match journal.verdict effectId with
  | .skip => some (false, life)
  | .record findingCode =>
      (life.finalizeStep id effectId .succeeded findingCode now).map fun life => (false, life)
  | .run =>
      (life.journal.beginStep id effectId journal.pid now staleLeaseMs).map fun journal =>
        (true, { life with journal })

/-- Its end. -/
def Lifecycle.closeStep (life : Lifecycle Unit) (effectId : String) (outcome : Outcome)
    (now : Int) : Lifecycle Unit :=
  (life.finalizeStep id effectId outcome.state outcome.findingCode now).getD life

/-- What a failed effect is to the context manager when something inside it catches the
exception. -/
def Outcome.caught : Outcome → Outcome
  | .raised => .succeeded
  | outcome => outcome

/-- The next step of a call. -/
def DeliveryWorld.mainAct (w : DeliveryWorld C) (c : C) (call : Call) (now : Int)
    (alive : Int → Bool) : MainStage → DeliveryWorld C
  | .going (.step effectId runStep :: items) =>
      match w.life.openStep id staleLeaseMs call.journal effectId now with
      | some (true, life) => { w with life }.goTo c call (.running effectId runStep items)
      | some (false, life) => { w with life }.goTo c call (.going items)
      | none => w.setCall c none
  | .going (.gates :: items) => w.goTo c call (.gating false items)
  | .going (.mark state :: items) =>
      { w with life := w.life.markOperationState id state now }.goTo c call (.going items)
  | .going (.enqueue :: items) =>
      match w.life.enqueued id deferredDigest now staleLeaseMs queueDepthMax alive with
      | some _ =>
          { w with
              life := w.life.enqueueDeferred id id deferredDigest now staleLeaseMs queueDepthMax
                alive }.goTo c call (.going items)
      | none => w.setCall c none
  | .going [] =>
      -- `_launch_deferred`, which launches nothing beside a batch that runs
      let batch : Batch :=
        { journal := ⟨call.journal.pid, none, []⟩, stage := .launched call.skipIndexSync }
      { w with batch := w.batch <|> some batch }.goTo c call (.late [.mark, .nudge, .event])
  | .late (effect :: effects) =>
      match w.life.openStep id staleLeaseMs call.journal effect.effectId now with
      | some (true, life) => { w with life }.goTo c call (.finishing effect effects)
      | some (false, life) => { w with life }.goTo c call (.late effects)
      | none => w.setCall c none
  | .late [] => w.setCall c none
  | .running _ _ _ | .mirroring _ | .gating _ _ | .gate _ _ _ | .finishing _ _ => w

/-- The end of an effect of a call. -/
def DeliveryWorld.finish (w : DeliveryWorld C) (c : C) (call : Call) (outcome : Outcome)
    (now : Int) : MainStage → DeliveryWorld C
  | .running effectId runStep items =>
      if outcome = .refused then w
      else if runStep then
        { w.note effectId outcome with
            life := w.life.closeStep id effectId outcome.caught now }.goTo c call (.going items)
      else
        let closed := { w.note effectId outcome with
          life := w.life.closeStep id effectId outcome now }
        if outcome = .raised then closed.setCall c none else closed.goTo c call (.going items)
  | .mirroring items =>
      -- `try_update_phase` catches what it raises
      if outcome = .refused then w
      else
        { w.note "S02" outcome with
            life := w.life.closeStep id "S02" outcome now }.goTo c call
          (.running "S01" false items)
  | .gate effectId refused items =>
      if outcome = .refused && effectId ≠ "S06" then w
      else
        let closed := { w.note effectId outcome with
          life := w.life.closeStep id effectId outcome now }
        -- `record_outcome` catches
        if outcome = .raised && effectId ≠ "S23b" then closed.setCall c none
        else closed.goTo c call (.gating (refused || outcome = .refused) items)
  | .finishing effect effects =>
      if outcome = .refused then w
      else
        let closed := { w.note effect.effectId outcome with
          life := w.life.closeStep id effect.effectId outcome now }
        if outcome = .raised then closed.setCall c none else closed.goTo c call (.late effects)
  | .going _ | .gating _ _ | .late _ => w

/-- `update_run_phase` inside `S01`; what the journal raises is caught with the rest. -/
def DeliveryWorld.mirror (w : DeliveryWorld C) (c : C) (call : Call) (now : Int) :
    MainStage → DeliveryWorld C
  | .running "S01" _ items =>
      match w.life.openStep id staleLeaseMs call.journal "S02" now with
      | some (true, life) => { w with life }.goTo c call (.mirroring items)
      | some (false, life) => { w with life }
      | none => w
  | _ => w

/-- A step of the gates. After a refusal only the outcome record is written. -/
def DeliveryWorld.gate (w : DeliveryWorld C) (c : C) (call : Call) (effectId : String)
    (now : Int) : MainStage → DeliveryWorld C
  | .gating refused items =>
      if effectId ∉ ["S23", "S06", "S07", "S23b"] || (refused && effectId ≠ "S23b") then w
      else
        match w.life.openStep id staleLeaseMs call.journal effectId now with
        | some (true, life) => { w with life }.goTo c call (.gate effectId refused items)
        | some (false, life) => { w with life }
        | none => if effectId = "S23b" then w else w.setCall c none
  | _ => w

/-- The end of the gates: a refused override blocks. -/
def DeliveryWorld.gateEnd (w : DeliveryWorld C) (c : C) (call : Call) (blocked : Bool)
    (now : Int) : MainStage → DeliveryWorld C
  | .gating refused items =>
      if blocked || refused then
        { w with life := w.life.markOperationState id .blocked now }.setCall c none
      else w.goTo c call (.going items)
  | _ => w

/-! ## The batch -/

def DeliveryWorld.setBatch (w : DeliveryWorld C) (batch : Batch) (stage : BatchStage) :
    DeliveryWorld C :=
  { w with batch := some { batch with stage } }

/-- An exception: `deferred_fatal`, or what stands for it after the roster. -/
def DeliveryWorld.failBatch (w : DeliveryWorld C) (batch : Batch) (stage : BatchStage) :
    DeliveryWorld C :=
  { w with batch := some { batch with stage, errors := batch.errors + 1 } }

/-- An effect of the batch in its boundary. -/
def DeliveryWorld.openBatch (w : DeliveryWorld C) (batch : Batch) (effectId : String) (now : Int)
    (runs skips : BatchStage) (raises : DeliveryWorld C) : DeliveryWorld C :=
  match w.life.openStep id staleLeaseMs batch.journal effectId now with
  | some (true, life) => { w with life }.setBatch batch runs
  | some (false, life) => { w with life }.setBatch batch skips
  | none => raises

/-- The next step of the batch. -/
def DeliveryWorld.batchAct (w : DeliveryWorld C) (batch : Batch) (now : Int) (works : Bool) :
    BatchStage → DeliveryWorld C
  | .launched skipIndexSync =>
      -- without the lock, or without a journal, there is no batch
      if !works then { w with batch := none }
      else
        { w with
            cancel := false
            life := w.life.markOperationState id .deferredRunning now
            batch := some
              { journal := { batch.journal with
                  resumeSteps := w.life.journal.readResumeGrant id batch.journal.pid now }
                stage := .roster (deferredRoster skipIndexSync) } }
  | .roster [] => w.setBatch batch .metrics
  | .roster (effectId :: effects) =>
      if effectId = "" then w.setBatch batch (.opened "" effects)
      else
        w.openBatch id staleLeaseMs batch effectId now (.opened effectId effects)
          (.roster effects) (w.failBatch batch .waiting)
  | .opened effectId effects =>
      if w.cancel then
        -- `cancelled_batch_budget`: nothing was raised
        { w with
            life := if effectId = "" then w.life
              else w.life.closeStep id effectId .succeeded now }.setBatch batch (.roster effects)
      else w.setBatch batch (.running effectId effects)
  | .metrics =>
      if works then
        w.openBatch id staleLeaseMs batch "D22" now .persisting .waiting
          (w.failBatch batch .waiting)
      else w.failBatch batch .waiting
  | .waiting =>
      match Dict.lookup w.steps "S20" with
      | some row =>
          if row.state = .notStarted ∨ row.state = .started then w else w.setBatch batch .results
      | none => w
  | .results =>
      w.openBatch id staleLeaseMs batch "D23" now .writing .audit (w.failBatch batch .audit)
  | .audit =>
      w.openBatch id staleLeaseMs batch "D24" now .appending .closing (w.setBatch batch .closing)
  | .closing =>
      let terminal : OperationState :=
        if w.cancel then .cancelled else if batch.errors ≠ 0 then .failed else .succeeded
      { w with life := w.life.markOperationState id terminal now, batch := none }
  | .running _ _ | .persisting | .writing | .appending => w

/-- The end of an effect of the batch. -/
def DeliveryWorld.batchFinish (w : DeliveryWorld C) (batch : Batch) (outcome : Outcome)
    (now : Int) : BatchStage → DeliveryWorld C
  | .running effectId effects =>
      if outcome = .refused then w
      else if effectId = "" then
        if outcome = .raised then w.failBatch batch (.roster effects)
        else w.setBatch batch (.roster effects)
      else
        -- `_run_step` catches
        let closed := { w.note effectId outcome with
          life := w.life.closeStep id effectId outcome.caught now }
        if outcome = .raised then closed.failBatch batch (.roster effects)
        else closed.setBatch batch (.roster effects)
  | .persisting =>
      let closed := { w.note "D22" outcome with life := w.life.closeStep id "D22" outcome now }
      if outcome = .succeeded then closed.setBatch batch .waiting
      else closed.failBatch batch .waiting
  | .writing =>
      let closed := { w.note "D23" outcome with life := w.life.closeStep id "D23" outcome now }
      if outcome = .succeeded then closed.setBatch batch .audit else closed.failBatch batch .audit
  | .appending =>
      { w.note "D24" outcome with life := w.life.closeStep id "D24" outcome now }.setBatch batch
        .closing
  | _ => w

/-! ## Steps -/

/-- An operator's deed; the effect of an accepted reconciliation as applied is confirmed. -/
def DeliveryWorld.operate (w : DeliveryWorld C) (deed : LifeDeed) : DeliveryWorld C :=
  let life := w.life.exec id digests deed
  let confirmed :=
    match deed with
    | .reconcileEffect _ effectId true _ =>
        if life.journal.steps ≠ w.life.journal.steps then w.confirmed ++ [effectId]
        else w.confirmed
    | _ => w.confirmed
  { w with life, confirmed }

/-- One step; what cannot happen changes nothing. -/
def DeliveryWorld.exec (w : DeliveryWorld C) : DeliveryDeed C → DeliveryWorld C
  | .call c pid now hasRun skipReflect skipIndexSync =>
      if (w.calls c).isSome then w
      else
        match w.life.journal.readResumeGrant id pid now with
        | some steps =>
            w.setCall c (some
              ⟨⟨pid, some steps, []⟩, skipIndexSync, .going (mainPlan hasRun skipReflect)⟩)
        | none => w
  | .act c now alive =>
      match w.calls c with
      | some call =>
          w.mainAct id deferredDigest staleLeaseMs queueDepthMax c call now alive call.stage
      | none => w
  | .finish c outcome now =>
      match w.calls c with
      | some call => w.finish id c call outcome now call.stage
      | none => w
  | .mirror c now =>
      match w.calls c with
      | some call => w.mirror id staleLeaseMs c call now call.stage
      | none => w
  | .gate c effectId now =>
      match w.calls c with
      | some call => w.gate id staleLeaseMs c call effectId now call.stage
      | none => w
  | .gateEnd c blocked now =>
      match w.calls c with
      | some call => w.gateEnd id c call blocked now call.stage
      | none => w
  | .stop c => w.setCall c none
  | .batchAct now works =>
      match w.batch with
      | some batch => w.batchAct id staleLeaseMs batch now works batch.stage
      | none => w
  | .batchFinish outcome now =>
      match w.batch with
      | some batch => w.batchFinish id batch outcome now batch.stage
      | none => w
  | .timeout =>
      match w.batch with
      | some batch =>
          match batch.stage with
          | .waiting => w.failBatch batch .results
          | _ => w
      | none => w
  | .watchdog => if w.batch.isSome then { w with cancel := true } else w
  | .crash => { w with calls := fun _ => none, batch := none, cancel := false }
  | .operator deed => if deed.recovers then w.operate id digests deed else w

/-- A first call that has claimed. -/
def DeliveryWorld.claimed (op : Operation) (c : C) (pid : Int)
    (hasRun skipReflect skipIndexSync : Bool) : DeliveryWorld C where
  life := Lifecycle.claimed op
  calls := fun b =>
    if b = c then some ⟨⟨pid, none, []⟩, skipIndexSync, .going (mainPlan hasRun skipReflect)⟩
    else none

end

end

end TrwMcp.Delivery
