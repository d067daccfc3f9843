import TrwMcp.Scheduling.LedgerHead

/-!
# The requirements registry

The executable PRDs of a directory, each with the state the scheduling ledger gives it, and the
gate in front of a state that takes a slot. The gate is asked about a PRD the registry holds; where
it holds none under that id, `set_execution_state` appends without asking.
-/

namespace TrwMcp.Scheduling

open Handoff Intent Lib

inductive ExecutionState where
  | candidate
  | queued
  | active
  | blockedExternal
  | closing
  deriving DecidableEq

def ExecutionState.text : ExecutionState → String
  | .candidate => "candidate"
  | .queued => "queued"
  | .active => "active"
  | .blockedExternal => "blocked_external"
  | .closing => "closing"

/-- `ExecutionState(text)` -/
def ExecutionState.ofText (text : String) : Option ExecutionState :=
  [ExecutionState.candidate, .queued, .active, .blockedExternal, .closing].find? (·.text = text)

@[simp] theorem ExecutionState.ofText_text (state : ExecutionState) :
    ofText state.text = some state := by
  cases state <;> decide

/-- The states that take a slot. -/
def ExecutionState.isWip : ExecutionState → Bool
  | .active | .blockedExternal => true
  | _ => false

structure PrdActiveLimits where
  globalP0ActiveMax : Nat := 3
  globalP0P1ActiveMax : Nat := 12
  perOwnerP0ActiveMax : Nat := 1
  perOwnerP0P1ActiveMax : Nat := 3
  blockedExternalExceptionMax : Nat := 1
  candidateRenewalDays : Nat := 30
  queuedRenewalDays : Nat := 30
  blockedExternalRenewalDays : Nat := 7
  deriving DecidableEq

/-- `RequirementRegistryEntry`; the title, category and dependencies take part in nothing here. -/
structure RegistryEntry where
  prdId : String
  lifecycleStatus : String
  priority : String
  owner : String
  executionState : ExecutionState
  renewalDate : String
  sourceDigest : String
  deriving DecidableEq

/-! ## The directory -/

/-- What `parse_frontmatter` and `prd_status` read: a field that is absent is `none`, another is its
`str`. -/
structure Frontmatter where
  id : Option String := none
  status : String := "draft"
  priority : Option String := none
  owner : Option String := none
  updated : Option String := none
  deriving DecidableEq

/-- A `PRD-*.md`; no frontmatter where the file cannot be read or has none. -/
structure PrdFile where
  stem : String
  sourceDigest : String
  frontmatter : Option Frontmatter
  deriving DecidableEq

def terminalStatuses : List String :=
  ["done", "implemented", "merged", "deprecated", "superseded", "delivered", "complete"]

/-- `_ISO_DATE_RE.match(text)` -/
def isoDatePrefix (text : String) : Bool :=
  match text.toList with
  | a :: b :: c :: d :: '-' :: m :: n :: '-' :: e :: f :: _ =>
      [a, b, c, d, m, n, e, f].all Char.isDigit
  | _ => false

/-- `text.upper()`; a letter beyond ASCII is in no priority the gate knows, in either case. -/
def upperText (text : String) : String := text.map Char.toUpper

def PrdFile.entry (file : PrdFile) : Option RegistryEntry :=
  file.frontmatter.bind fun fm =>
    if fm.status ∈ terminalStatuses then none
    else
      let updated := fm.updated.getD ""
      some
        { prdId := fm.id.getD file.stem
          lifecycleStatus := fm.status
          priority := upperText (fm.priority.getD "P1")
          owner := if fm.owner.getD "" = "" then "unassigned" else fm.owner.getD ""
          executionState := .candidate
          renewalDate := if isoDatePrefix updated then updated else ""
          sourceDigest := file.sourceDigest }

/-- `_scan_executable_entries`; the files in the order `sorted` gives them. -/
def scanExecutableEntries (prds : List PrdFile) : List RegistryEntry :=
  (prds.filterMap PrdFile.entry).insertionSort fun a b => a.prdId ≤ b.prdId

/-! ## Reconciling -/

/-- `by_id[prd_id]` is the last entry with the id; `f` is applied to it. -/
@[grind =] def updateLast (f : RegistryEntry → RegistryEntry) (prdId : String) :
    List RegistryEntry → List RegistryEntry
  | [] => []
  | entry :: entries =>
      if prdId ∈ entries.map (·.prdId) then entry :: updateLast f prdId entries
      else if entry.prdId = prdId then f entry :: entries
      else entry :: entries

/-- What an action sets of an entry. -/
def SchedulingAction.apply (action : SchedulingAction) (state : ExecutionState)
    (entry : RegistryEntry) : RegistryEntry :=
  { entry with
      executionState := state
      renewalDate := action.effectiveUtcDate
      owner := if (action.payload.get "owner").getD "" = "" then entry.owner
        else (action.payload.get "owner").getD "" }

def reconcileAction (entries : List RegistryEntry) (action : SchedulingAction) :
    Except Failure (List RegistryEntry) :=
  let prdId := (action.payload.get "prd_id").getD ""
  if prdId ∉ entries.map (·.prdId) then .ok entries
  else
    match action.kind with
    | .setExecutionState =>
        match (action.payload.get "state").bind ExecutionState.ofText with
        | some state => .ok (updateLast (action.apply state) prdId entries)
        | none => .error .stateError
    | .renew =>
        .ok (updateLast (fun e => { e with renewalDate := action.effectiveUtcDate }) prdId entries)
    | .advanceEvaluationEpoch => .ok entries

def reconcile (entries : List RegistryEntry) (actions : List SchedulingAction) :
    Except Failure (List RegistryEntry) :=
  actions.foldlM reconcileAction entries

inductive RegistryStatus where
  | ok
  | staleSchedulingHead
  | epochUnset
  deriving DecidableEq

def RegistryStatus.text : RegistryStatus → String
  | .ok => "ok"
  | .staleSchedulingHead => "stale_scheduling_head"
  | .epochUnset => "epoch_unset"

structure RegistryBuildResult where
  status : RegistryStatus
  entries : List RegistryEntry := []
  epoch : Option EvaluationEpoch := none
  headDigest : String := genesisDigest
  hotPath : List String := []
  expired : List String := []
  limits : PrdActiveLimits
  error : Option Failure := none
  expiryEvaluated : Bool := true

def renewalWindowDays (entry : RegistryEntry) (limits : PrdActiveLimits) : Option Nat :=
  match entry.executionState with
  | .candidate => some limits.candidateRenewalDays
  | .queued => some limits.queuedRenewalDays
  | .blockedExternal => some limits.blockedExternalRenewalDays
  | _ => none

def isExpired (epochDay : Nat) (limits : PrdActiveLimits) (entry : RegistryEntry) : Bool :=
  match renewalWindowDays entry limits with
  | none => false
  | some window =>
      match fromIsoformat (String.ofList (entry.renewalDate.toList.take 10)) with
      | none => false
      | some day => decide ((window : Int) < (epochDay : Int) - day)

section

variable (lib : Stdlib)

/-- `build_registry`, once the ledger is read. -/
def registryOf (actions : List SchedulingAction) (prds : List PrdFile) (limits : PrdActiveLimits) :
    Except Failure RegistryBuildResult := do
  let epoch := deriveEvaluationEpoch lib actions
  let entries ← reconcile (scanExecutableEntries prds) actions
  let headDigest := ledgerHeadDigest lib actions
  if isGenesisEpoch epoch then
    return { status := .epochUnset, entries, epoch := some epoch, headDigest,
             hotPath := entries.map (·.prdId), limits, expiryEvaluated := false }
  else
    let epochDay := (fromIsoformat epoch.effectiveUtcDate).getD 0
    return { status := .ok, entries, epoch := some epoch, headDigest,
             hotPath := (entries.filter fun e => !isExpired epochDay limits e).map (·.prdId),
             expired := (entries.filter fun e => isExpired epochDay limits e).map (·.prdId),
             limits }

def buildRegistry (prds : List PrdFile) (store : Store) (limits : PrdActiveLimits) :
    Except Failure RegistryBuildResult :=
  match readLedger lib store with
  | .error failure =>
      if failure.isLedgerError then
        .ok { status := .staleSchedulingHead, limits, error := some failure }
      else .error failure
  | .ok actions => registryOf lib actions prds limits

end

/-! ## The gate -/

structure ActivationDecision where
  allowed : Bool
  reason : String
  occupiedSlots : List String := []
  deriving DecidableEq

def sortedIds (entries : List RegistryEntry) : List String :=
  (entries.map (·.prdId)).insertionSort (· ≤ ·)

/-- The entries in a state that takes a slot. -/
def wip (entries : List RegistryEntry) : List RegistryEntry :=
  entries.filter (·.executionState.isWip)

def isP0 (entry : RegistryEntry) : Bool := entry.priority = "P0"

def isP0P1 (entry : RegistryEntry) : Bool := entry.priority = "P0" || entry.priority = "P1"

def isBlocked (entry : RegistryEntry) : Bool := entry.executionState = .blockedExternal

/-- One limit: whether it applies to the candidate, who takes its slots, its label and maximum. -/
structure Check where
  applies : Bool
  occupied : List RegistryEntry
  label : String
  maximum : Nat

def Check.full (check : Check) : Bool := check.applies && decide (check.maximum ≤ check.occupied.length)

/-- The checks in the order the gate makes them. -/
def activationChecks (entries : List RegistryEntry) (limits : PrdActiveLimits)
    (candidate : RegistryEntry) : List Check :=
  let others := (wip entries).filter (·.prdId ≠ candidate.prdId)
  let mine := others.filter (·.owner = candidate.owner)
  [⟨isP0 candidate, others.filter isP0, "global P0 active", limits.globalP0ActiveMax⟩,
    ⟨isP0P1 candidate, others.filter isP0P1, "global P0/P1 active", limits.globalP0P1ActiveMax⟩,
    ⟨isP0 candidate, mine.filter isP0, "per-owner P0 active (" ++ candidate.owner ++ ")",
      limits.perOwnerP0ActiveMax⟩,
    ⟨isP0P1 candidate, mine.filter isP0P1, "per-owner P0/P1 active (" ++ candidate.owner ++ ")",
      limits.perOwnerP0P1ActiveMax⟩]

/-- The exception for external blockage, checked first. -/
def blockedCheck (entries : List RegistryEntry) (limits : PrdActiveLimits)
    (candidate : RegistryEntry) : Check :=
  ⟨isBlocked candidate,
    ((wip entries).filter (·.prdId ≠ candidate.prdId)).filter fun e =>
      e.owner = candidate.owner && isBlocked e,
    "blocked-external exception", limits.blockedExternalExceptionMax⟩

def evaluateActivation (registry : RegistryBuildResult) (prdId : String) : ActivationDecision :=
  if registry.status ≠ .ok then ⟨false, "registry unknown: " ++ registry.status.text, []⟩
  else
    match registry.entries.find? (·.prdId = prdId) with
    | none => ⟨false, prdId ++ " is not in the executable registry", []⟩
    | some candidate =>
        let blocked := blockedCheck registry.entries registry.limits candidate
        if blocked.full then
          ⟨false, "blocked-external exception limit " ++ toString blocked.maximum ++
            " for owner " ++ candidate.owner ++ " is occupied", sortedIds blocked.occupied⟩
        else
          match (activationChecks registry.entries registry.limits candidate).find? Check.full with
          | some check =>
              ⟨false, check.label ++ " limit " ++ toString check.maximum ++ " is occupied",
                sortedIds check.occupied⟩
          | none => ⟨true, "activation permitted within limits", []⟩

/-! ## The writer -/

/-- The arguments of `set_execution_state`, and what the append is given besides. -/
structure StateChange where
  prdId : String
  state : ExecutionState
  owner : String := ""
  authorizationReceipt : String
  actor : String
  actionId : String
  today : String
  deriving DecidableEq

def StateChange.request (change : StateChange) : Request where
  kind := .setExecutionState
  payload := [("prd_id", change.prdId), ("state", change.state.text)] ++
    if change.owner = "" then [] else [("owner", change.owner)]
  authorizationReceipt := change.authorizationReceipt
  actor := change.actor
  actionId := change.actionId
  today := change.today

/-- The entry as it would be. -/
def StateChange.asIf (change : StateChange) (entry : RegistryEntry) : RegistryEntry :=
  { entry with
      executionState := change.state
      owner := if change.owner = "" then entry.owner else change.owner }

/-- `f` applied to the first entry with the id. -/
@[grind =] def updateFirst (f : RegistryEntry → RegistryEntry) (prdId : String) :
    List RegistryEntry → List RegistryEntry
  | [] => []
  | entry :: entries =>
      if entry.prdId = prdId then f entry :: entries else entry :: updateFirst f prdId entries

/-- The gate of `set_execution_state`. -/
def StateChange.admit (change : StateChange) (registry : RegistryBuildResult) :
    Except Failure Unit :=
  if registry.status ≠ .ok then .error (.cannotActivate change.prdId registry.status.text)
  else if change.prdId ∉ registry.entries.map (·.prdId) then .ok ()
  else
    let decision := evaluateActivation
      { registry with entries := updateFirst change.asIf change.prdId registry.entries }
      change.prdId
    if decision.allowed then .ok ()
    else .error (.activationRefused decision.reason decision.occupiedSlots)

section

variable (lib : Stdlib)

def setExecutionState (prds : List PrdFile) (change : StateChange) :
    Eff Failure Store SchedulingAction := do
  if change.state.isWip then
    let store ← Eff.read
    match buildRegistry lib prds store {} >>= change.admit with
    | .error failure => Eff.raise failure
    | .ok () => appendLocked lib change.request
  else appendLocked lib change.request

/-- The calls of a `RegistryWriter`. -/
inductive WriterCall where
  | advanceEvaluationEpoch (authorizationReceipt actor actionId today : String)
  | renew (prdId authorizationReceipt actor actionId today : String)
  | setExecutionState (change : StateChange)
  deriving DecidableEq

def WriterCall.request : WriterCall → Request
  | .advanceEvaluationEpoch authorizationReceipt actor actionId today =>
      { kind := .advanceEvaluationEpoch, payload := [], authorizationReceipt, actor, actionId,
        today }
  | .renew prdId authorizationReceipt actor actionId today =>
      { kind := .renew, payload := [("prd_id", prdId)], authorizationReceipt, actor, actionId,
        today }
  | .setExecutionState change => change.request

def WriterCall.run (prds : List PrdFile) : WriterCall → Eff Failure Store SchedulingAction
  | .setExecutionState change => Scheduling.setExecutionState lib prds change
  | call => appendLocked lib call.request

/-! ## What a tampered file does -/

theorem buildRegistry_stale {prds : List PrdFile} {store : Store} {limits : PrdActiveLimits}
    {failure : Failure} (hread : readLedger lib store = .error failure)
    (h : failure.isLedgerError = true) :
    ∃ registry, buildRegistry lib prds store limits = .ok registry ∧
      registry.status = .staleSchedulingHead := by
  refine ⟨{ status := .staleSchedulingHead, limits, error := some failure }, ?_, rfl⟩
  rw [buildRegistry, hread]
  simp only [h, if_true]

theorem WriterCall.refused {prds : List PrdFile} {store : Store} {failure : Failure}
    (hread : readLedger lib store = .error failure) (call : WriterCall) :
    ∃ raised, call.run lib prds store = (.error raised, store) := by
  cases call with
  | advanceEvaluationEpoch receipt actor actionId today => exact appendLocked_refused hread
  | renew prdId receipt actor actionId today => exact appendLocked_refused hread
  | setExecutionState change =>
      rw [WriterCall.run, Scheduling.setExecutionState]
      split
      · rw [Eff.read_bind]
        cases hgate : buildRegistry lib prds store {} >>= change.admit with
        | error raised => exact ⟨raised, rfl⟩
        | ok u => exact appendLocked_refused hread
      · exact appendLocked_refused hread

/-- What the claim of tamper evidence asks of one other file content `raw`. -/
structure TamperEvident (committed : List SchedulingAction) (store : Store)
    (raw : Option ByteArray) : Prop where
  accepted : (∃ actions, readLedger lib { store with ledger := raw } = .ok actions) ↔
    parsedActions raw = some committed
  stale : parsedActions raw ≠ some committed → ∀ prds limits, ∃ registry,
    buildRegistry lib prds { store with ledger := raw } limits = .ok registry ∧
      registry.status = .staleSchedulingHead
  refused : parsedActions raw ≠ some committed → ∀ prds (call : WriterCall), ∃ failure,
    call.run lib prds { store with ledger := raw } =
      (.error failure, { store with ledger := raw })

theorem WriterCall.appends {lib : Stdlib} {prds : List PrdFile} {store store' : Store}
    {call : WriterCall} {action : SchedulingAction}
    (h : call.run lib prds store = (.ok action, store')) : Appends lib store action store' := by
  cases call with
  | advanceEvaluationEpoch receipt actor actionId today => exact ⟨_, h⟩
  | renew prdId receipt actor actionId today => exact ⟨_, h⟩
  | setExecutionState change =>
      rw [WriterCall.run, Scheduling.setExecutionState] at h
      split at h
      · rw [Eff.read_bind] at h
        cases hgate : buildRegistry lib prds store {} >>= change.admit with
        | error raised =>
            rw [hgate] at h
            exact absurd h Eff.raise_ne_ok
        | ok u =>
            rw [hgate] at h
            exact ⟨_, h⟩
      · exact ⟨_, h⟩

/-- The stores the writer's calls reach, over any directories, with the actions they returned. -/
def WriterStep (store : Store) (action : SchedulingAction) (store' : Store) : Prop :=
  ∃ prds, ∃ call : WriterCall, call.run lib prds store = (.ok action, store')

end

/-- Whatever the ledger is replaced with, the anchor shows it, if it decodes: text that parses to
other actions is refused, and a file that is no text raises out of `build_registry`. -/
theorem tamper_evident {lib : Stdlib} (hfree : Function.Injective (actionDigest lib))
    {committed : List SchedulingAction} {store : Store}
    (hrun : Run (WriterStep lib) Store.empty committed store) (raw : Option ByteArray) :
    TamperEvident lib committed store raw ↔ Decodes raw := by
  have hwritten : Written lib committed store := by
    refine run_written hfree (hrun.mono ?_)
    rintro s a s' ⟨prds, call, hcall⟩
    exact call.appends hcall
  have hother : Written lib committed { store with ledger := raw } :=
    ⟨hwritten.anchor, hwritten.chained⟩
  have hread : ∀ actions, readLedger lib { store with ledger := raw } = .ok actions ↔
      parsedActions raw = some actions ∧ actions = committed := fun _ => hother.read_iff hfree
  have hrefused : parsedActions raw ≠ some committed →
      ∃ failure, readLedger lib { store with ledger := raw } = .error failure := by
    intro hne
    cases h : readLedger lib { store with ledger := raw } with
    | error failure => exact ⟨failure, rfl⟩
    | ok actions =>
        obtain ⟨hparsed, rfl⟩ := (hread actions).mp h
        exact absurd hparsed hne
  constructor
  · intro h
    by_contra hdecodes
    have hbad : readLedger lib { store with ledger := raw } = .error .unicodeDecodeError :=
      readLedger_undecodable hdecodes
    have hne : parsedActions raw ≠ some committed := by
      intro hparsed
      obtain ⟨actions, hok⟩ := h.accepted.mpr hparsed
      rw [hbad] at hok
      cases hok
    obtain ⟨registry, hregistry, -⟩ := h.stale hne [] {}
    rw [buildRegistry, hbad] at hregistry
    simp [Failure.isLedgerError] at hregistry
  · intro hdecodes
    refine ⟨⟨?_, ?_⟩, fun hne prds limits => ?_, fun hne prds call => ?_⟩
    · rintro ⟨actions, hok⟩
      obtain ⟨hparsed, rfl⟩ := (hread actions).mp hok
      exact hparsed
    · exact fun hparsed => ⟨committed, (hread committed).mpr ⟨hparsed, rfl⟩⟩
    · obtain ⟨failure, hfailure⟩ := hrefused hne
      have hledger : failure.isLedgerError = true :=
        @readLedger_error lib { store with ledger := raw } failure hdecodes hfailure
      exact buildRegistry_stale lib hfailure hledger
    · obtain ⟨failure, hfailure⟩ := hrefused hne
      exact call.refused lib hfailure

/-! ### A written ledger, and a file that is no text -/

theorem ActionKind.text_injective : Function.Injective ActionKind.text := by
  intro a b h
  cases a <;> cases b <;> first | rfl | exact absurd h (by decide)

theorem normal_payload (lib : Stdlib) (p : Payload) :
    List.insertionSort (fun m n : String × Json => m.1 ≤ n.1)
        (normalMembers lib (p.items.map fun m => (m.1, Json.str m.2))) =
      p.items.map fun m => (m.1, Json.str m.2) := by
  have hstr : (normalMembers lib (p.items.map fun m => (m.1, Json.str m.2))) =
      p.items.map fun m => (m.1, Json.str m.2) := by
    rw [normalMembers_eq, List.map_map]
    exact List.map_congr_left fun m _ => by simp [normal]
  have hsort := sortByKey_map Json.str p.items
  rw [sortByKey, sortByKey, List.Pairwise.insertionSort_eq p.sorted] at hsort
  rw [hstr, hsort]

theorem Payload.eq_of_items {p q : Payload}
    (h : (p.items.map fun m => (m.1, Json.str m.2)) = q.items.map fun m => (m.1, Json.str m.2)) :
    p = q := by
  have hinj : Function.Injective fun m : String × String => (m.1, Json.str m.2) := by
    rintro ⟨k, v⟩ ⟨l, w⟩ hkv
    simpa using hkv
  have hitems := List.map_injective_iff.mpr hinj h
  cases p
  cases q
  simpa using hitems

theorem actionDigest_injective {lib : Stdlib} (hlib : ChainAssumptions lib) :
    Function.Injective (actionDigest lib) := by
  intro a b h
  have hbytes := congrArg String.fromUTF8? (hlib.injective h)
  rw [fromUTF8_toUTF8, fromUTF8_toUTF8] at hbytes
  have hnormal := dumps_injective hlib.floats (String.ofList_inj.mp (Option.some.inj hbytes))
  simp [SchedulingAction.modelDump, normal, normalMembers, sortByKey] at hnormal
  obtain ⟨hid, hactor, hreceipt, hdate, hkind, hpayload, hprevious, hsequence⟩ := hnormal
  rw [normal_payload, normal_payload] at hpayload
  cases a
  cases b
  simp only [SchedulingAction.mk.injEq]
  exact ⟨hid, hsequence, ActionKind.text_injective hkind, hdate, hprevious, hreceipt, hactor,
    Payload.eq_of_items hpayload⟩

def sampleAdvance : WriterCall :=
  .advanceEvaluationEpoch "receipt-1" "operator" "a-1" "2026-07-24"

theorem sample_written (lib : Stdlib) :
    Run (WriterStep lib) Store.empty [sampleAdvance.request.action lib []]
      (Store.empty.write lib (sampleAdvance.request.action lib [])) := by
  refine Run.single ⟨[], sampleAdvance, appendLocked_eq ?_ ?_⟩
  · change stripText "receipt-1" ≠ ""
    decide
  · have hvalid : (sampleAdvance.request.action lib []).Valid := by
      change "a-1" ≠ "" ∧ 1 ≤ 0 + 1 ∧ (fromIsoformat "2026-07-24").isSome ∧ "receipt-1" ≠ "" ∧
        "operator" ≠ ""
      decide
    have hforward : ¬ "2026-07-24" < genesisEpochDate := by decide
    change extend lib [] sampleAdvance.request = _
    rw [extend]
    simp only [hvalid, if_true]
    exact if_neg fun h => hforward h.2

/-- One action written; a ledger that is then emptied is refused. -/
theorem tamper_evident_sample :
    TamperEvident decimalStdlib [sampleAdvance.request.action decimalStdlib []]
      (Store.empty.write decimalStdlib (sampleAdvance.request.action decimalStdlib [])) none ↔
    Decodes none :=
  tamper_evident (actionDigest_injective chainAssumptions_decimal) (sample_written _) none

/-- With a byte that begins no character in the ledger, `build_registry` raises. -/
theorem undecodable_ledger_raises :
    Run (WriterStep decimalStdlib) Store.empty [] Store.empty ∧
      ¬ TamperEvident decimalStdlib [] Store.empty (some ⟨#[0xff]⟩) ∧
      buildRegistry decimalStdlib [] ⟨some ⟨#[0xff]⟩, none⟩ {} = .error .unicodeDecodeError := by
  have hinvalid : ¬ (⟨#[0xff]⟩ : ByteArray).IsValidUTF8 := by decide
  have hlines : ledgerLines ⟨#[0xff]⟩ = .error .unicodeDecodeError := by
    unfold ledgerLines String.fromUTF8?
    simp [hinvalid]
  have hraises : buildRegistry decimalStdlib [] ⟨some ⟨#[0xff]⟩, none⟩ {} =
      .error .unicodeDecodeError := by
    rw [buildRegistry, readLedger, loadLedger, hlines]
    rfl
  refine ⟨.nil, fun h => ?_, hraises⟩
  have hother : parsedActions (some ⟨#[0xff]⟩) ≠ some [] := by
    rw [parsedActions, hlines]
    simp [Except.toOption]
  obtain ⟨registry, hregistry, -⟩ := h.stale hother [] {}
  rw [show ({ Store.empty with ledger := some ⟨#[0xff]⟩ } : Store) = ⟨some ⟨#[0xff]⟩, none⟩ from rfl,
    hraises] at hregistry
  cases hregistry

end TrwMcp.Scheduling
