import TrwMcp.Lib.Dict
import TrwMcp.Lib.Fold

/-!
# Committing admissions

`commit_admissions` moves candidates in one batch, deletes the worktree records of the ones it
releases, and then writes a record an admission; where one of these cannot be written it deletes the
ones it wrote and moves the admitted candidates back.
-/

namespace TrwMcp.Formation

open Lib

/-! ## Candidates -/

inductive CandidateState where
  | active
  | admitted
  | joining
  | withdrawn
  | revoked
  | pickedUp
  deriving DecidableEq

/-- `_TRANSITIONS` -/
def CandidateState.transitions : CandidateState → List CandidateState
  | .active => [.admitted, .withdrawn, .revoked]
  | .admitted => [.active, .joining, .withdrawn, .revoked]
  | .joining => [.pickedUp, .withdrawn, .revoked]
  | .withdrawn | .revoked | .pickedUp => []

/-- A candidate; its pin, its run and its times are read by nothing here. -/
structure Candidate where
  candidateId : String
  worktree : Option String
  state : CandidateState
  admittedFormation : Option String
  deriving DecidableEq

/-- What is raised. -/
inductive AdmissionFault where
  | noRegistry
  | unknownCandidate (candidateId : String)
  | foreign (candidateId : String) (held : Option String) (expected : Option String)
  | cannotMove (candidateId : String) (source : CandidateState) (held : Option String)
      (target : CandidateState)
  | recordHeld (worktree owner formationId : String)
  | recordFailed
  deriving DecidableEq

/-- One requested move; nothing is `_KEEP`. -/
structure StateTransition where
  candidateId : String
  state : CandidateState
  admittedFormation : Option (Option String) := none
  expectedAdmittedFormation : Option (Option String) := none
  required : Bool := true

/-- `_apply_transition` -/
def applyTransition (found : Candidate) (state : CandidateState)
    (admittedFormation : Option (Option String)) : Except AdmissionFault Candidate :=
  let retry := state = found.state ∧
    (admittedFormation = none ∨ admittedFormation = some found.admittedFormation)
  if ¬ retry ∧ state ∉ found.state.transitions then
    .error (.cannotMove found.candidateId found.state found.admittedFormation state)
  else
    .ok { found with
      state, admittedFormation := admittedFormation.getD found.admittedFormation }

/-- One move of a batch. -/
def moveCandidate (records : Dict String Candidate) (op : StateTransition) :
    Except AdmissionFault (Dict String Candidate) :=
  match Dict.lookup records op.candidateId with
  | none => if op.required then .error (.unknownCandidate op.candidateId) else .ok records
  | some found =>
      match op.expectedAdmittedFormation with
      | some expected =>
          if found.state = .admitted ∧ found.admittedFormation ≠ expected then
            .error (.foreign op.candidateId found.admittedFormation expected)
          else
            match applyTransition found op.state op.admittedFormation with
            | .ok updated => .ok (Dict.set records op.candidateId updated)
            | .error fault => if op.required then .error fault else .ok records
      | none =>
          match applyTransition found op.state op.admittedFormation with
          | .ok updated => .ok (Dict.set records op.candidateId updated)
          | .error fault => if op.required then .error fault else .ok records

/-- `set_states`; nothing is a registry that does not exist. -/
def setStates (registry : Option (Dict String Candidate)) (transitions : List StateTransition) :
    Except AdmissionFault (Option (Dict String Candidate)) :=
  if transitions = [] then .ok registry
  else
    match registry with
    | none => if transitions.any (·.required) then .error .noRegistry else .ok none
    | some records => (transitions.foldlM moveCandidate records).map some

/-! ## Worktree records -/

structure WorktreeRecord where
  formationId : String
  memberId : String
  manifestRevision : Int
  creatingRun : String
  revision : Nat
  deriving DecidableEq

/-- The candidate registry and the worktree membership records. -/
structure AdmissionStores where
  registry : Option (Dict String Candidate)
  records : Dict String WorktreeRecord

/-- `candidate` -/
def AdmissionStores.candidate (stores : AdmissionStores) (candidateId : String) :
    Option Candidate :=
  stores.registry.bind (Dict.lookup · candidateId)

section

-- `resolve` is `str(worktree.resolve())`
variable (resolve : String → String)

/-- `worktree_admitted_by`, of a resolved worktree. -/
def AdmissionStores.worktreeAdmittedBy (stores : AdmissionStores) (key formationId : String) :
    Bool :=
  (stores.registry.getD []).any fun m =>
    (stores.candidate m.1).any fun c =>
      c.worktree = some key && c.state = .admitted && c.admittedFormation = some formationId

/-- `record_worktree_member`; `fails` is a write that does not succeed. -/
def AdmissionStores.recordWorktreeMember (stores : AdmissionStores) (worktree formationId : String)
    (memberId : String) (manifestRevision : Int) (creatingRun : String) (fails : Bool) :
    Except AdmissionFault AdmissionStores :=
  let key := resolve worktree
  match Dict.lookup stores.records key with
  | some existing =>
      if existing.formationId ≠ formationId ∧
          stores.worktreeAdmittedBy key existing.formationId = true then
        .error (.recordHeld worktree existing.formationId formationId)
      else if fails then .error .recordFailed
      else
        .ok { stores with
          records := Dict.set stores.records key
            ⟨formationId, memberId, manifestRevision, creatingRun, existing.revision + 1⟩ }
  | none =>
      if fails then .error .recordFailed
      else
        .ok { stores with
          records := Dict.set stores.records key
            ⟨formationId, memberId, manifestRevision, creatingRun, 1⟩ }

/-- `release_worktree_member` -/
def AdmissionStores.releaseWorktreeMember (stores : AdmissionStores) (formationId : String)
    (worktree : String) : AdmissionStores :=
  match Dict.lookup stores.records (resolve worktree) with
  | some existing =>
      if existing.formationId ≠ formationId then stores
      else { stores with records := stores.records.filter fun m => m.1 ≠ resolve worktree }
  | none => stores

/-! ## The commit -/

/-- A member's slot and the candidate it admits. -/
structure AdmittedMember where
  memberId : String
  admittedRevision : Option Int
  found : Candidate
  deriving DecidableEq

def admissionOp (formationId : String) (admitted : AdmittedMember) : StateTransition where
  candidateId := admitted.found.candidateId
  state := .admitted
  admittedFormation := some (some formationId)

/-- A release, and the move that undoes an admission. -/
def releaseOp (formationId candidateId : String) : StateTransition where
  candidateId
  state := .active
  admittedFormation := some none
  expectedAdmittedFormation := some (some formationId)
  required := false

variable (formationId orchestratorRun : String) (fails : Nat → Bool)

/-- The loop that writes the records: what it raised, the stores and the worktrees it wrote. -/
@[grind =] def recordAll : List AdmittedMember → Nat → AdmissionStores → List String →
    Option AdmissionFault × AdmissionStores × List String
  | [], _, stores, written => (none, stores, written)
  | admitted :: rest, k, stores, written =>
      match admitted.found.worktree with
      | none => recordAll rest (k + 1) stores written
      | some worktree =>
          match stores.recordWorktreeMember resolve worktree formationId admitted.memberId
              (admitted.admittedRevision.getD 0) orchestratorRun (fails k) with
          | .error fault => (some fault, stores, written)
          | .ok stores => recordAll rest (k + 1) stores (written ++ [worktree])

/-- `commit_admissions`: what it raises, and the stores it leaves. -/
def commitAdmissions (stores : AdmissionStores) (admitted : List AdmittedMember)
    (released : List String) : Option AdmissionFault × AdmissionStores :=
  let releasedWorktrees := released.filterMap fun handle =>
    (stores.candidate handle).bind (·.worktree)
  let admissionOps := admitted.map (admissionOp formationId)
  match setStates stores.registry (admissionOps ++ released.map (releaseOp formationId)) with
  | .error fault => (some fault, stores)
  | .ok registry =>
      let moved : AdmissionStores := { stores with registry }
      let freed := releasedWorktrees.foldl (·.releaseWorktreeMember resolve formationId) moved
      match recordAll resolve formationId orchestratorRun fails admitted 0 freed [] with
      | (none, stores, _) => (none, stores)
      | (some fault, stores, written) =>
          let undone := written.foldl (·.releaseWorktreeMember resolve formationId) stores
          if admissionOps = [] then (some fault, undone)
          else
            match setStates undone.registry
                (admitted.map fun a => releaseOp formationId a.found.candidateId) with
            | .error rollbackFault => (some rollbackFault, undone)
            | .ok registry => (some fault, { undone with registry })

end

end TrwMcp.Formation
