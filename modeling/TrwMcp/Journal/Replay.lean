import Mathlib.Data.Rat.Defs
import Mathlib.Algebra.Order.Ring.Rat
import TrwMcp.Lib.Dict
import TrwMcp.Lib.Except

/-!
# Replaying a journaled learning

`execute_learn` up to what it hands the dedup check and the store, the payload it journals before
that, and the second run of the same code over the journaled payload.
-/

namespace TrwMcp.Journal

open Lib

/-- An assertion of a learning, a dict of texts. -/
abbrev Assertion := List (String × String)

/-- The parameters that the caller supplies. -/
structure LearnArgs where
  summary : String
  detail : String
  tags : Option (List String) := none
  evidence : Option (List String) := none
  impact : Rat := 1 / 2
  shardId : Option String := none
  sourceType : String := "agent"
  sourceIdentity : String := ""
  clientProfile : String := ""
  modelId : String := ""
  consolidatedFrom : Option (List String) := none
  assertions : Option (List Assertion) := none
  type : String := "pattern"
  nudgeLine : String := ""
  expires : String := ""
  confidence : String := "unverified"
  evidenceLevel : String := "unknown"
  taskType : String := ""
  domain : Option (List String) := none
  phaseOrigin : String := ""
  phaseAffinity : Option (List String) := none
  teamOrigin : String := ""
  protectionTier : String := "normal"
  sessionId : Option String := none
  scope : String := "auto"

/-- The journaled parameters, one field for each of `JOURNAL_ARG_KEYS`. -/
structure JournalPayload where
  summary : String
  detail : String
  tags : Option (List String)
  evidence : Option (List String)
  impact : Rat
  shardId : Option String
  sourceType : String
  sourceIdentity : String
  clientProfile : String
  modelId : String
  consolidatedFrom : Option (List String)
  assertions : Option (List Assertion)
  type : String
  nudgeLine : String
  expires : String
  confidence : String
  taskType : String
  domain : Option (List String)
  phaseOrigin : String
  phaseAffinity : Option (List String)
  teamOrigin : String
  protectionTier : String
  sessionId : Option String
  scope : String

/-- What the dedup check and the store are handed. -/
structure Handed where
  learningId : String
  summary : String
  detail : String
  tags : List String
  evidence : List String
  impact : Rat
  shardId : Option String
  sourceType : String
  sourceIdentity : String
  clientProfile : String
  modelId : String
  assertions : Option (List Assertion)
  type : String
  nudgeLine : String
  expires : String
  confidence : String
  evidenceLevel : String
  taskType : String
  domain : List String
  phaseOrigin : String
  phaseAffinity : List String
  teamOrigin : String
  protectionTier : String
  sessionId : Option String
  scope : String

/-- The text predicates of the gates, the masking, and the tables of the package. -/
structure LearnEnv where
  blank : String → Bool
  noise : String → Bool
  injection : String → Bool
  credential : String → Bool
  maskText : String → String
  isSolution : String → Bool
  upper : String → String
  validTypes : List String

/-! ## Snapshot and gates -/

/-- `project_root` is absent in a replay; `some none` is a checkout that names no commit. -/
def stampAssertions (head : Option (Option String)) (assertions : Option (List Assertion)) :
    Option (List Assertion) :=
  match head, assertions with
  | some (some sha), some as =>
      some (as.map fun a =>
        if (Dict.lookup a "commit_hash").getD "" = "" then Dict.set a "commit_hash" sha else a)
  | _, as => as

def captureJournalPayload (a : LearnArgs) : JournalPayload where
  summary := a.summary
  detail := a.detail
  tags := a.tags
  evidence := a.evidence
  impact := a.impact
  shardId := a.shardId
  sourceType := a.sourceType
  sourceIdentity := a.sourceIdentity
  clientProfile := a.clientProfile
  modelId := a.modelId
  consolidatedFrom := a.consolidatedFrom
  assertions := a.assertions
  type := a.type
  nudgeLine := a.nudgeLine
  expires := a.expires
  confidence := a.confidence
  taskType := a.taskType
  domain := a.domain
  phaseOrigin := a.phaseOrigin
  phaseAffinity := a.phaseAffinity
  teamOrigin := a.teamOrigin
  protectionTier := a.protectionTier
  sessionId := a.sessionId
  scope := a.scope

def maxSummaryChars : Nat := 2000

def maxDetailChars : Nat := 4000

def runAcceptGates (env : LearnEnv) (summary detail : String) : Except String Unit :=
  if env.blank summary && env.blank detail then .error "empty_content"
  else if env.noise summary then .error "noise_filter"
  else if summary.length > maxSummaryChars then .error "summary_too_long"
  else if detail.length > maxDetailChars then .error "detail_too_long"
  else if env.injection (summary ++ "\n" ++ detail) then .error "injection_pattern"
  else .ok ()

def auxiliaryContentReject (env : LearnEnv) (tags evidence : Option (List String))
    (nudgeLine : String) : Except String Unit :=
  if env.injection ("\n".intercalate (tags.getD [] ++ evidence.getD [] ++ [nudgeLine])) then
    .error "injection_pattern"
  else .ok ()

/-! ## Masking -/

/-- The loop that numbers a repeated key; the candidates differ, so one of them is free within as
many steps as there are keys. -/
@[grind =] def numberKey (masked : Assertion) (base : String) :
    Nat → List (String × Nat) → String → String × List (String × Nat)
  | 0, next, key => (key, next)
  | fuel + 1, next, key =>
      if Dict.has masked key then
        let n := (Dict.lookup next base).getD 1 + 1
        numberKey masked base fuel (Dict.set next base n) (base ++ " #" ++ toString n)
      else (key, next)

/-- A dict's keys are masked as well, and two that mask alike are numbered. -/
def maskAssertion (env : LearnEnv) (a : Assertion) : Assertion :=
  (a.foldl (fun (acc : Assertion × List (String × Nat)) m =>
    let base := env.maskText m.1
    let (key, next) := numberKey acc.1 base (acc.1.length + 1) acc.2 base
    (Dict.set acc.1 key (env.maskText m.2), next)) ([], [])).1

def maskAssertions (env : LearnEnv) (assertions : Option (List Assertion)) :
    Option (List Assertion) :=
  assertions.map fun as => as.map (maskAssertion env)

def maskTexts (env : LearnEnv) (texts : Option (List String)) : Option (List String) :=
  texts.map fun ts => ts.map env.maskText

/-- The fields whose masked value is stored. -/
def maskStored (env : LearnEnv) (p : JournalPayload) : JournalPayload :=
  { p with
    summary := env.maskText p.summary
    detail := env.maskText p.detail
    nudgeLine := env.maskText p.nudgeLine
    tags := maskTexts env p.tags
    evidence := maskTexts env p.evidence
    assertions := maskAssertions env p.assertions }

/-- The texts of the fields that are stored masked. -/
def storedLeaves (p : JournalPayload) : List String :=
  [p.summary, p.detail, p.nudgeLine] ++ p.tags.getD [] ++ p.evidence.getD [] ++
    (p.assertions.getD []).flatMap fun a => a.flatMap fun m => [m.1, m.2]

/-- The texts of the other fields, none of which may hold what the masking would change. -/
def otherLeaves (p : JournalPayload) : List String :=
  p.shardId.toList ++ [p.sourceType, p.sourceIdentity, p.clientProfile, p.modelId] ++
    p.consolidatedFrom.getD [] ++ [p.type, p.expires, p.confidence, p.taskType] ++
    p.domain.getD [] ++ [p.phaseOrigin] ++ p.phaseAffinity.getD [] ++
    [p.teamOrigin, p.protectionTier] ++ p.sessionId.toList ++ [p.scope]

def storeBoundText (env : LearnEnv) (p : JournalPayload) : Except String JournalPayload :=
  if (storedLeaves p ++ otherLeaves p).any env.credential ||
      (otherLeaves p).any fun s => env.maskText s != s then
    .error "pii_blocked"
  else .ok (maskStored env p)

/-! ## Metadata -/

/-- An omitted phase is the one of the run that is active at the moment, if there is one. -/
def resolvePhaseOrigin (env : LearnEnv) (phaseOrigin : String) (detected : Option String) :
    String :=
  if phaseOrigin = "" then
    match detected with
    | some phase => if phase = "" then phaseOrigin else env.upper phase
    | none => phaseOrigin
  else phaseOrigin

def truncateNudgeLine (text : String) : String :=
  if text.length ≤ 80 then text
  else match (List.range' 60 20).find? fun i => text.toList[i]? == some ' ' with
    | some i => String.ofList (text.toList.take i) ++ "…"
    | none => String.ofList (text.toList.take 80)

def prepareNudgeLine (nudgeLine summary : String) : String :=
  truncateNudgeLine (if nudgeLine = "" then summary else nudgeLine)

def prepareTags (env : LearnEnv) (isSolutionFn : Option (String → Bool))
    (tags : Option (List String)) (summary : String) : List String :=
  let safeTags := tags.getD []
  if (isSolutionFn.getD env.isSolution) summary && !safeTags.contains "pattern" then
    safeTags ++ ["pattern"]
  else safeTags

def auditFindingPhaseAffinity : List (String × List String) :=
  [("spec_gap", ["plan", "implement"]), ("impl_gap", ["implement"]),
    ("test_gap", ["implement", "validate"]), ("integration_gap", ["implement"]),
    ("traceability_gap", ["implement", "deliver"])]

def auditFindingDomainHints : List (String × List String) :=
  [("spec_gap", ["planning"]), ("impl_gap", ["implementation"]), ("test_gap", ["testing"]),
    ("integration_gap", ["integration"]), ("traceability_gap", ["traceability"])]

def prdCategoryDomainHints : List (String × List String) :=
  [("API", ["api"]), ("CORE", ["product"]), ("DATA", ["data"]),
    ("FIX", ["maintenance", "quality"]), ("INFRA", ["infrastructure", "operations"]),
    ("OPS", ["operations"]), ("PERF", ["performance"]), ("QUAL", ["testing", "quality"]),
    ("SEC", ["security"]), ("UX", ["ux"])]

def isAuditFinding (tags : List String) : Bool := tags.contains "audit-finding"

def auditType (tags : List String) (type : String) : String :=
  if isAuditFinding tags && (type == "" || type == "pattern") then "incident" else type

def auditConfidence (tags : List String) (confidence : String) : String :=
  if isAuditFinding tags && ["", "hypothesis", "unverified"].contains confidence then "verified"
  else confidence

def inferredDomain (env : LearnEnv) (tags : List String) : List String :=
  let tags := tags.filter (· ≠ "")
  let byCategory := tags.flatMap fun tag =>
    match tag.startsWith "PRD-", tag.splitOn "-" with
    | true, _ :: category :: _ :: _ =>
        (Dict.lookup prdCategoryDomainHints (env.upper category)).getD []
    | _, _ => []
  let byFinding := tags.flatMap fun tag => (Dict.lookup auditFindingDomainHints tag).getD []
  (byCategory ++ byFinding).eraseDups

def auditDomain (env : LearnEnv) (tags : List String) (domain : Option (List String)) :
    List String :=
  if isAuditFinding tags && (domain.getD []).isEmpty then inferredDomain env tags
  else domain.getD []

def auditPhaseAffinity (tags : List String) (phaseAffinity : Option (List String)) :
    List String :=
  if isAuditFinding tags && (phaseAffinity.getD []).isEmpty then
    (tags.findSome? fun tag => Dict.lookup auditFindingPhaseAffinity tag).getD []
  else phaseAffinity.getD []

/-! ## The call and its replay -/

def clamp (impact : Rat) : Rat := max 0 (min 1 impact)

/-- What is handed on: the fields of the payload after masking, the others from the arguments. -/
def handOver (env : LearnEnv) (detected : Option String) (isSolutionFn : Option (String → Bool))
    (learningId : String) (a : LearnArgs) (p : JournalPayload) : Handed :=
  let tags := prepareTags env isSolutionFn p.tags p.summary
  { learningId := learningId
    summary := p.summary
    detail := p.detail
    tags := tags
    evidence := p.evidence.getD []
    impact := clamp a.impact
    shardId := a.shardId
    sourceType := a.sourceType
    sourceIdentity := a.sourceIdentity
    clientProfile := a.clientProfile
    modelId := a.modelId
    assertions := p.assertions
    type := auditType tags a.type
    nudgeLine := prepareNudgeLine p.nudgeLine p.summary
    expires := a.expires
    confidence := auditConfidence tags a.confidence
    evidenceLevel := a.evidenceLevel
    taskType := a.taskType
    domain := auditDomain env tags a.domain
    phaseOrigin := resolvePhaseOrigin env a.phaseOrigin detected
    phaseAffinity := auditPhaseAffinity tags a.phaseAffinity
    teamOrigin := a.teamOrigin
    protectionTier := a.protectionTier
    sessionId := a.sessionId
    scope := a.scope }

/-- `execute_learn` up to the dedup check: what is handed on and the payload that is journaled, or
the reason of the rejection. -/
def executeLearn (env : LearnEnv) (detected : Option String) (head : Option (Option String))
    (isSolutionFn : Option (String → Bool)) (learningId : String) (a : LearnArgs) :
    Except String (Handed × JournalPayload) := do
  let a := { a with assertions := stampAssertions head a.assertions }
  runAcceptGates env a.summary a.detail
  auxiliaryContentReject env a.tags a.evidence a.nudgeLine
  let p ← storeBoundText env (captureJournalPayload a)
  .ok (handOver env detected isSolutionFn learningId a p, p)

def learnTypeAliases : List (String × String) :=
  [("gotcha", "workaround"), ("gotchas", "workaround"), ("project", "convention")]

def coerceLearnType (env : LearnEnv) (type : String) : String :=
  if env.validTypes.contains type then type else (Dict.lookup learnTypeAliases type).getD type

/-- The arguments of a replay: what the payload holds, and the defaults for the rest. -/
def replayArgs (env : LearnEnv) (p : JournalPayload) : LearnArgs where
  summary := p.summary
  detail := p.detail
  tags := p.tags
  evidence := p.evidence
  impact := p.impact
  shardId := p.shardId
  sourceType := p.sourceType
  sourceIdentity := p.sourceIdentity
  clientProfile := p.clientProfile
  modelId := p.modelId
  consolidatedFrom := p.consolidatedFrom
  assertions := p.assertions
  type := coerceLearnType env p.type
  nudgeLine := p.nudgeLine
  expires := p.expires
  confidence := p.confidence
  taskType := p.taskType
  domain := p.domain
  phaseOrigin := p.phaseOrigin
  phaseAffinity := p.phaseAffinity
  teamOrigin := p.teamOrigin
  protectionTier := p.protectionTier
  sessionId := p.sessionId
  scope := p.scope

def replayJournaledLearn (env : LearnEnv) (detected : Option String) (learningId : String)
    (p : JournalPayload) : Except String (Handed × JournalPayload) :=
  executeLearn env detected none none learningId (replayArgs env p)

/-! ## When a replay hands on the same -/

section

variable {env : LearnEnv} {detected detected' : Option String} {head : Option (Option String)}
variable {isSolutionFn : Option (String → Bool)} {id : String} {a : LearnArgs} {h : Handed}
variable {p p' : JournalPayload}

/-- The arguments pass the gates, and their texts the credential policy. -/
def Accepted (env : LearnEnv) (a : LearnArgs) : Prop :=
  runAcceptGates env a.summary a.detail = .ok () ∧
    auxiliaryContentReject env a.tags a.evidence a.nudgeLine = .ok () ∧
    ∃ p, storeBoundText env (captureJournalPayload a) = .ok p

theorem storeBoundText_eq_ok (hp : storeBoundText env p = .ok p') : p' = maskStored env p := by
  unfold storeBoundText at hp
  split at hp
  · cases hp
  · exact (Except.ok.inj hp).symm

theorem executeLearn_eq_ok : executeLearn env detected head isSolutionFn id a = .ok (h, p) ↔
    Accepted env { a with assertions := stampAssertions head a.assertions } ∧
      p = maskStored env (captureJournalPayload
        { a with assertions := stampAssertions head a.assertions }) ∧
      h = handOver env detected isSolutionFn id
        { a with assertions := stampAssertions head a.assertions } p := by
  unfold executeLearn Accepted
  simp only [Except.bind_eq_ok]
  constructor
  · rintro ⟨⟨⟩, hgates, ⟨⟩, haux, q, hstore, heq⟩
    injection heq with heq
    injection heq with hhanded hpayload
    subst hpayload
    exact ⟨⟨hgates, haux, q, hstore⟩, storeBoundText_eq_ok hstore, hhanded.symm⟩
  · rintro ⟨⟨hgates, haux, q, hstore⟩, rfl, rfl⟩
    have := storeBoundText_eq_ok hstore
    exact ⟨(), hgates, (), haux, q, hstore, by rw [this]⟩

theorem stampAssertions_none (as : Option (List Assertion)) : stampAssertions none as = as := rfl

theorem maskTexts_maskTexts (hmask : ∀ s, env.maskText (env.maskText s) = env.maskText s)
    (texts : Option (List String)) : maskTexts env (maskTexts env texts) = maskTexts env texts := by
  cases texts with
  | none => rfl
  | some ts =>
      rw [maskTexts, maskTexts]
      simp only [Option.map_some, List.map_map]
      congr 1
      exact List.map_congr_left fun s _ => hmask s

theorem maskStored_replayArgs (hmask : ∀ s, env.maskText (env.maskText s) = env.maskText s)
    (a : LearnArgs) :
    maskStored env (captureJournalPayload
        (replayArgs env (maskStored env (captureJournalPayload a)))) =
      { maskStored env (captureJournalPayload a) with
        type := coerceLearnType env a.type
        assertions := maskAssertions env (maskAssertions env a.assertions) } := by
  unfold maskStored captureJournalPayload replayArgs
  simp only [hmask, maskTexts_maskTexts hmask]

end

/-- What makes the second run of a call hand on what the first one did. -/
structure Replayable (env : LearnEnv) (detected detected' : Option String)
    (isSolutionFn : Option (String → Bool)) (a : LearnArgs) : Prop where
  accepted : Accepted env (replayArgs env (maskStored env (captureJournalPayload a)))
  evidenceLevel : a.evidenceLevel = "unknown"
  phase : resolvePhaseOrigin env a.phaseOrigin detected' =
    resolvePhaseOrigin env a.phaseOrigin detected
  tags : prepareTags env none (maskTexts env a.tags) (env.maskText a.summary) =
    prepareTags env isSolutionFn (maskTexts env a.tags) (env.maskText a.summary)
  type : auditType (prepareTags env isSolutionFn (maskTexts env a.tags) (env.maskText a.summary))
      (coerceLearnType env a.type) =
    auditType (prepareTags env isSolutionFn (maskTexts env a.tags) (env.maskText a.summary)) a.type
  assertions : maskAssertions env (maskAssertions env a.assertions) =
    maskAssertions env a.assertions

theorem replay_equivalent {env : LearnEnv}
    (hmask : ∀ s, env.maskText (env.maskText s) = env.maskText s) {detected : Option String}
    {head : Option (Option String)} {isSolutionFn : Option (String → Bool)} {id : String}
    {a : LearnArgs} {h : Handed} {p : JournalPayload}
    (hrun : executeLearn env detected head isSolutionFn id a = .ok (h, p))
    (detected' : Option String) :
    (∃ p', replayJournaledLearn env detected' id p = .ok (h, p')) ↔
      Replayable env detected detected' isSolutionFn
        { a with assertions := stampAssertions head a.assertions } := by
  obtain ⟨-, rfl, rfl⟩ := executeLearn_eq_ok.mp hrun
  generalize { a with assertions := stampAssertions head a.assertions } = b
  unfold replayJournaledLearn
  simp only [executeLearn_eq_ok, stampAssertions_none, maskStored_replayArgs hmask]
  constructor
  · rintro ⟨p', haccepted, rfl, hhanded⟩
    injection hhanded with _ _ _ htags _ _ _ _ _ _ _ hassertions htype _ _ _ hlevel _ _ hphase
    have htags' := htags.symm
    refine ⟨haccepted, hlevel, hphase.symm, htags', ?_, hassertions.symm⟩
    rw [htags'] at htype
    exact htype.symm
  · rintro ⟨haccepted, hlevel, hphase, htags, htype, hassertions⟩
    refine ⟨_, haccepted, rfl, ?_⟩
    unfold handOver
    simp only [replayArgs, maskStored, captureJournalPayload, htags, htype, hphase, hassertions,
      hlevel]

/-! ## A call that is replayed alike, and one that is not -/

def sampleEnv : LearnEnv where
  blank := fun s => s == ""
  noise := fun _ => false
  injection := fun _ => false
  credential := fun _ => false
  maskText := fun s => if s = "KEY=value" then "KEY=<REDACTED:assignment>" else s
  isSolution := fun _ => false
  upper := fun s => s
  validTypes := ["pattern", "incident", "workaround", "convention"]

theorem sampleEnv_mask (s : String) :
    sampleEnv.maskText (sampleEnv.maskText s) = sampleEnv.maskText s := by
  unfold sampleEnv
  dsimp only
  split
  · rfl
  · rfl

def sampleLearn (evidenceLevel : String) : LearnArgs where
  summary := "KEY=value"
  detail := "detail"
  evidenceLevel := evidenceLevel

theorem replay_equivalent_sample :
    ∃ h p p', executeLearn sampleEnv none none none "L-1" (sampleLearn "unknown") = .ok (h, p) ∧
      h.summary = "KEY=<REDACTED:assignment>" ∧
      replayJournaledLearn sampleEnv none "L-1" p = .ok (h, p') := by
  obtain ⟨p', hreplay⟩ := (@replay_equivalent sampleEnv sampleEnv_mask none none none "L-1"
    (sampleLearn "unknown") _ _ rfl none).mpr
    { accepted := ⟨by decide, by decide, _, rfl⟩
      evidenceLevel := rfl
      phase := rfl
      tags := rfl
      type := by decide
      assertions := rfl }
  exact ⟨_, _, p', rfl, by decide, hreplay⟩

/-- The evidence level of a call is not journaled, and its replay hands on the default. -/
theorem evidence_level_lost :
    ∃ h p h' p', executeLearn sampleEnv none none none "L-1" (sampleLearn "verified") =
        .ok (h, p) ∧
      replayJournaledLearn sampleEnv none "L-1" p = .ok (h', p') ∧
      h.evidenceLevel = "verified" ∧ h'.evidenceLevel = "unknown" := by
  refine ⟨_, _, _, _, rfl, rfl, rfl, rfl⟩

end TrwMcp.Journal
