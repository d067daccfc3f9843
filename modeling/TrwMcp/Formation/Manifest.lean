import TrwMcp.Formation.OwnedGlob
import TrwMcp.Lib.Dict
import TrwMcp.Lib.Run

/-!
# The formation manifest

The manifest's fields, the validators that run on every load and on every payload, and the verbs
that write it: `create`, `revise`, `addSlots`. The YAML on disk is the manifest that was rendered
into it.
-/

namespace TrwMcp.Formation

open Lib Lib.Text Lib.Regex

inductive FormationMemberStatus where
  | pending | joined | active | delivered | abandoned | reassigned
  deriving DecidableEq

structure FormationMember where
  memberId : String
  client : String
  role : String := ""
  runPath : Option String := none
  pinKey : Option String := none
  ownedPaths : List String := []
  testOwnedPaths : List String := []
  prdIds : List String := []
  status : FormationMemberStatus := .pending
  joinedUtc : Option String := none
  note : String := ""
  openJoin : Bool := false
  admittedCandidate : Option String := none
  admittedRevision : Option Int := none
  deriving DecidableEq

structure FormationManifest where
  formationId : String
  schemaVersion : Option Int := none
  revision : Int := 1
  createdUtc : String
  updatedUtc : String
  orchestratorRunPath : String
  sharedRulesRef : String := ""
  members : List FormationMember := []
  deriving DecidableEq

/-! ## Validators -/

/-- `_ID_RE`; its `$` also stands before a final line feed. -/
def idRe : Pattern :=
  seq start (seq (char isAlnum)
    (seq (rep (char fun c => isAlnum c || c == '.' || c == '_' || c == '-') 0 (some 63)) stop))

/-- `_PRD_ID_RE` -/
def prdIdRe : Pattern :=
  seq start (seq (literal "PRD-") (seq (plus (char fun c => isUpper c || isDigit c))
    (seq (literal "-") (seq (plus (char isDigit)) stop))))

def checkId (field value : String) : Except FormationError Unit :=
  if search idRe value then .ok () else .error (.invalidId field value)

def strip (text : String) : String := String.ofList (stripChars text.toList)

/-- One entry of `_check_prd_ids`. -/
def checkPrdId (item : String) : Except FormationError String :=
  if search prdIdRe (strip item) then .ok (strip item) else .error (.invalidPrdId item)

/-- The field validators of `FormationMember`. -/
def validateMember (member : FormationMember) : Except FormationError FormationMember := do
  checkId "member_id" member.memberId
  let ownedPaths ← member.ownedPaths.mapM normaliseGlob
  let testOwnedPaths ← member.testOwnedPaths.mapM normaliseGlob
  let prdIds ← member.prdIds.mapM checkPrdId
  return { member with ownedPaths, testOwnedPaths, prdIds }

def checkSharedRulesRef (value : String) : Except FormationError String :=
  if (stripChars value.toList).isEmpty then .ok "" else normaliseGlob value

def refuseDuplicateMemberIds (members : List FormationMember) :
    Except FormationError (List String) :=
  members.foldlM (fun seen entry =>
    if seen.contains entry.memberId then .error (.duplicateMember entry.memberId)
    else .ok (entry.memberId :: seen)) []

/-- The loop `_refuse_overlapping_globs` and `_refuse_shared_prd_ids` share: no value of `field`
stands in two lists, or twice in one. -/
def refuseShared (field : FormationMember → List String)
    (refusal : String → String → String → FormationError) (members : List FormationMember) :
    Except FormationError (Dict String String) :=
  members.foldlM (fun owners entry =>
    (field entry).foldlM (fun owners value =>
      match Dict.lookup owners value with
      | some previous => .error (refusal value previous entry.memberId)
      | none => .ok (Dict.set owners value entry.memberId)) owners) []

def refuseOverlappingGlobs (members : List FormationMember) (field : String)
    (globs : FormationMember → List String) : Except FormationError (Dict String String) :=
  refuseShared globs (.sharedGlob field) members

def refuseSharedPrdIds (members : List FormationMember) :
    Except FormationError (Dict String String) :=
  refuseShared (·.prdIds) .sharedPrd members

def checkCrossMemberInvariants (members : List FormationMember) : Except FormationError Unit := do
  let _ ← refuseDuplicateMemberIds members
  let _ ← refuseOverlappingGlobs members "owned_paths" (·.ownedPaths)
  let _ ← refuseOverlappingGlobs members "test_owned_paths" (·.testOwnedPaths)
  let _ ← refuseSharedPrdIds members
  return ()

def atLeastOne (field : String) (value : Int) : Except FormationError Unit :=
  if 1 ≤ value then .ok () else .error (.tooSmall field value)

/-- `FormationManifest.model_validate` -/
def validate (manifest : FormationManifest) : Except FormationError FormationManifest := do
  checkId "formation_id" manifest.formationId
  manifest.schemaVersion.elim (.ok ()) (atLeastOne "schema_version")
  atLeastOne "revision" manifest.revision
  let sharedRulesRef ← checkSharedRulesRef manifest.sharedRulesRef
  let members ← manifest.members.mapM validateMember
  checkCrossMemberInvariants members
  return { manifest with sharedRulesRef, members }

/-! ## Admission -/

/-- What the candidate registry says of a handle. -/
structure CandidateRecord where
  live : Bool
  active : Bool
  admittedFormation : Option String

/-- The registry, and whether the transitions and worktree records of a call can be written. -/
structure Coordination where
  candidate : String → Option CandidateRecord
  commits : List String → List String → Except FormationError Unit

def admissible (registry : Coordination) (formationId : String) (committed : List String)
    (handle : String) : Bool :=
  match registry.candidate handle with
  | none => false
  | some found =>
      found.live && (found.active ||
        (found.admittedFormation == some formationId && !committed.contains handle))

/-- The admitting revision one member is stamped with. `stamped` are the members whose payload
names `admitted_revision`. -/
def stampMember (registry : Coordination) (previous : List FormationMember) (formationId : String)
    (revision : Int) (stamped : Dict String Bool) (member : FormationMember) :
    Except FormationError FormationMember :=
  if Dict.lookup stamped member.memberId = some true then
    .error (.refused "admitted_revision is server-set")
  else match member.admittedCandidate with
    | none => .ok { member with admittedRevision := none }
    | some handle =>
        match previous.reverse.find? (·.memberId == member.memberId) with
        | some prior =>
            if prior.admittedCandidate = some handle then
              .ok { member with admittedRevision := prior.admittedRevision }
            else admit_ member handle
        | none => admit_ member handle
where
  /-- A handle new to the slot. -/
  admit_ (member : FormationMember) (handle : String) : Except FormationError FormationMember :=
    if member.runPath.isSome then .error (.refused "admit a candidate to a pending slot")
    else if admissible registry formationId (previous.filterMap (·.admittedCandidate)) handle then
      .ok { member with admittedRevision := some revision }
    else .error (.refused "candidate_not_admissible")

/-- The handles a revision gives back. -/
def releasedHandles (previous members : List FormationMember) : List String :=
  (previous.filter fun m => m.runPath.isNone).filterMap fun m =>
    m.admittedCandidate.filter fun handle =>
      !(members.filterMap (·.admittedCandidate)).contains handle

def admittedMembers (registry : Coordination) (before : Option FormationManifest)
    (members : List FormationMember) (formationId : String) (revision : Int)
    (stamped : Dict String Bool) : Except FormationError (List FormationMember) := do
  let previous := (before.map (·.members)).getD []
  let out ← members.mapM (stampMember registry previous formationId revision stamped)
  let admitted := (out.filter fun m => m.admittedRevision = some revision).filterMap
    (·.admittedCandidate)
  registry.commits admitted (releasedHandles previous members)
  return out

/-! ## The verbs -/

def refuseIf (condition : Bool) (reason : String) : Except FormationError Unit :=
  if condition then .error (.refused reason) else .ok ()

/-- A member of a payload: its fields, and whether it names `admitted_revision`. -/
structure MemberPayload where
  fields : FormationMember
  namesRevision : Bool := false

/-- The orchestrator's own member, when `create` is asked to register it. -/
structure Lead where
  memberId : String
  pinKey : Option String
  enabled : Bool
  now : String

structure CreatePayload where
  formationId : String
  schemaVersion : Option Int := none
  revision : Int := 1
  createdUtc : String
  updatedUtc : String
  orchestratorRunPath : String
  sharedRulesRef : String := ""
  members : List MemberPayload := []
  lead : Option Lead := none
  /-- The identifiers some PRD on disk already has. -/
  prdsOnDisk : List String := []

/-- `orchestrator_member` -/
def orchestratorMember (runPath : String) (lead : Lead) :
    Except FormationError FormationMember :=
  match lead.pinKey with
  | none => .error (.refused "an orchestrator member needs the orchestrator session's pin key")
  | some pin =>
      if pin.isEmpty then
        .error (.refused "an orchestrator member needs the orchestrator session's pin key")
      else validateMember
        { memberId := lead.memberId, client := "orchestrator", role := "orchestrator",
          runPath := some runPath, pinKey := some pin, status := .joined,
          joinedUtc := some lead.now }

/-- The members `create` validates: the payload's, then the orchestrator's. -/
def createMembers (payload : CreatePayload) : Except FormationError (List FormationMember) :=
  match payload.lead with
  | none => .ok (payload.members.map (·.fields))
  | some lead =>
      if lead.enabled then do
        let member ← orchestratorMember payload.orchestratorRunPath lead
        return payload.members.map (·.fields) ++ [member]
      else .error (.refused "the orchestrator member is experimental")

def stampedBy (members : List MemberPayload) : Dict String Bool :=
  Dict.ofPairs (members.map fun m => (m.fields.memberId, m.namesRevision))

def create (registry : Coordination) (disk : Option FormationManifest)
    (payload : CreatePayload) : Except FormationError FormationManifest := do
  refuseIf disk.isSome "a formation manifest already exists"
  let members ← createMembers payload
  let manifest ← validate
    { formationId := payload.formationId, schemaVersion := payload.schemaVersion,
      revision := payload.revision, createdUtc := payload.createdUtc,
      updatedUtc := payload.updatedUtc, orchestratorRunPath := payload.orchestratorRunPath,
      sharedRulesRef := payload.sharedRulesRef, members }
  refuseIf (manifest.members.any (·.prdIds.any payload.prdsOnDisk.contains))
    "prd_ids entry already names a PRD on disk"
  let members ← admittedMembers registry none manifest.members manifest.formationId
    manifest.revision (stampedBy payload.members)
  return { manifest with members }

/-- The fields a revision changes; an absent field is kept. -/
structure MemberUpdate where
  memberId : Option String := none
  client : Option String := none
  role : Option String := none
  runPath : Option (Option String) := none
  pinKey : Option (Option String) := none
  ownedPaths : Option (List String) := none
  testOwnedPaths : Option (List String) := none
  prdIds : Option (List String) := none
  status : Option FormationMemberStatus := none
  joinedUtc : Option (Option String) := none
  note : Option String := none
  openJoin : Option Bool := none
  admittedCandidate : Option (Option String) := none
  admittedRevision : Option (Option Int) := none

def MemberUpdate.over (changes : MemberUpdate) (member : FormationMember) : FormationMember where
  memberId := changes.memberId.getD member.memberId
  client := changes.client.getD member.client
  role := changes.role.getD member.role
  runPath := changes.runPath.getD member.runPath
  pinKey := changes.pinKey.getD member.pinKey
  ownedPaths := changes.ownedPaths.getD member.ownedPaths
  testOwnedPaths := changes.testOwnedPaths.getD member.testOwnedPaths
  prdIds := changes.prdIds.getD member.prdIds
  status := changes.status.getD member.status
  joinedUtc := changes.joinedUtc.getD member.joinedUtc
  note := changes.note.getD member.note
  openJoin := changes.openJoin.getD member.openJoin
  admittedCandidate := changes.admittedCandidate.getD member.admittedCandidate
  admittedRevision := changes.admittedRevision.getD member.admittedRevision

/-- `_apply` of a revision -/
def applyUpdate (member : FormationMember) (changes : MemberUpdate) :
    Except FormationError FormationMember :=
  validateMember (changes.over member)

def applyTo (memberId : String) (changes : MemberUpdate) (members : List FormationMember) :
    Except FormationError (List FormationMember) :=
  members.mapM fun m => if m.memberId = memberId then applyUpdate m changes else .ok m

/-- Who calls, and when. -/
structure Caller where
  runPath : Option String
  now : String

def requireOrchestrator (manifest : FormationManifest) (caller : Caller) :
    Except FormationError Unit :=
  if caller.runPath = some manifest.orchestratorRunPath then .ok ()
  else .error (.refused "accepted only from the orchestrator run")

/-- `read_manifest` -/
def readManifest (disk : Option FormationManifest) : Except FormationError FormationManifest :=
  match disk with
  | none => .error (.refused "formation manifest is unreadable")
  | some stored => validate stored

def revise (registry : Coordination) (disk : Option FormationManifest) (caller : Caller)
    (updates : Dict String MemberUpdate) : Except FormationError FormationManifest := do
  let manifest ← readManifest disk
  requireOrchestrator manifest caller
  let members ← updates.foldlM (fun members (memberId, changes) => do
    refuseIf (!(manifest.members.map (·.memberId)).contains memberId) "declares no such member"
    applyTo memberId changes members) manifest.members
  let members ← admittedMembers registry (some manifest) members manifest.formationId
    (manifest.revision + 1)
    (updates.map fun (memberId, changes) => (memberId, changes.admittedRevision.isSome))
  let revised := { manifest with
    members, revision := manifest.revision + 1, updatedUtc := caller.now }
  let _ ← validate revised
  return revised

/-- A new slot; `serverStamped` are the keys it names that the server sets. -/
structure SlotPayload where
  memberId : String
  client : String
  role : String := ""
  ownedPaths : List String := []
  testOwnedPaths : List String := []
  prdIds : List String := []
  note : String := ""
  openJoin : Bool := false
  admittedCandidate : Option String := none
  serverStamped : List String := []

def SlotPayload.member (slot : SlotPayload) : FormationMember where
  memberId := slot.memberId
  client := slot.client
  role := slot.role
  ownedPaths := slot.ownedPaths
  testOwnedPaths := slot.testOwnedPaths
  prdIds := slot.prdIds
  note := slot.note
  openJoin := slot.openJoin
  admittedCandidate := slot.admittedCandidate

def addSlots (registry : Coordination) (disk : Option FormationManifest) (caller : Caller)
    (slots : List SlotPayload) : Except FormationError FormationManifest := do
  refuseIf slots.isEmpty "add_slots needs at least one member"
  refuseIf (slots.any fun slot => !slot.serverStamped.isEmpty)
    "a new slot is pending and server-stamped"
  let manifest ← readManifest disk
  requireOrchestrator manifest caller
  refuseIf (slots.any fun slot => (manifest.members.map (·.memberId)).contains slot.memberId)
    "member ids already in formation"
  let grown ← validate { manifest with
    members := manifest.members ++ slots.map SlotPayload.member,
    revision := manifest.revision + 1, updatedUtc := caller.now }
  let members ← admittedMembers registry (some manifest) grown.members manifest.formationId
    grown.revision []
  return { grown with members }

end TrwMcp.Formation
