import TrwMcp.Handoff.Json
import TrwMcp.Lib.Text

/-!
# The requirement baseline of a PRD

The baseline is what the first approved version on the first-parent line said. It is found again
each time: the commits that touched a file of the PRD are listed by git as a stream of names, each
of their trees is read for the file, and each version for its status.
-/

namespace TrwMcp.Requirements

open Lib Handoff

/-! ## What git lists -/

structure Change where
  kind : Char
  path : List Char

/-- A commit of the first-parent line: what it changes against its first parent, with renames as
deletions and additions, what `ls-tree` prints of a directory, and the texts of its blobs. -/
structure Commit where
  sha : List Char
  date : List Char
  changes : List Change
  entries : List Char → List (List Char)
  blob : List Char → Option String
  sha_ne : sha ≠ []
  sha_tab : '\t' ∉ sha
  kinds : ∀ change ∈ changes, change.kind ∉ ['\n', '\x01', 'R', 'C']

structure ChainDeclaration where
  chain : List String := []
  malformed : Bool := false
  deriving DecidableEq

/-- What the code reads with: YAML and the tables of a text, `str`, the digits of `\d`, and what a
pathspec with its `*` takes. -/
structure Readers where
  parseFrontmatter : String → Dict String Json
  declaredChains : String → Dict String ChainDeclaration
  str : Json → String
  isDecimal : Char → Bool
  pathspec : List Char → List Char → List Char → Bool

/-- The tokens of one commit in `git log -z --name-status`. -/
def Commit.tokens (commit : Commit) (listed : List Change) : List (List Char) :=
  ('\x01' :: commit.sha ++ '\t' :: commit.date) ::
    match listed with
    | [] => []
    | change :: rest =>
        ['\n', change.kind] :: change.path ::
          rest.flatMap fun change => [[change.kind], change.path]

/-- `git log` of the line, which is oldest first: the newest first, and those only that touch the
pathspec. -/
def gitLog (pathspec : List Char → Bool) (line : List Commit) : List (List Char) :=
  (line.reverse.flatMap fun commit =>
    let listed := commit.changes.filter fun change => pathspec change.path
    if listed.isEmpty then [] else commit.tokens listed) ++ [[]]

/-! ## The history -/

/-- `path.rsplit("/", 1)[-1]` -/
def basename (path : List Char) : List Char := path.rtakeWhile (· ≠ '/')

/-- `^id(?!\d)` -/
def boundary (isDecimal : Char → Bool) (prdId name : List Char) : Bool :=
  match List.isPrefixOf? prdId name with
  | some [] => true
  | some (c :: _) => !isDecimal c
  | none => false

/-- A commit of the stream is noted when one of its paths carries the identifier. -/
def note (hit : Bool) (sha date : List Char) (touched : List (List Char × List Char)) :
    List (List Char × List Char) :=
  if hit && !sha.isEmpty && decide (touched.getLast?.map (·.1) ≠ some sha) then
    touched ++ [(sha, date)]
  else touched

/-- The loop over the tokens. -/
@[grind =] def scan (hit : List Char → Bool) : List (List Char) → List Char → List Char →
    List (List Char × List Char) → List (List Char × List Char)
  | [], _, _, touched => touched
  | token :: rest, sha, date, touched =>
      match token.dropWhile (· = '\n') with
      | [] => scan hit rest sha date touched
      | kind :: mark =>
          if kind = '\x01' then
            scan hit rest (mark.takeWhile (· ≠ '\t')) ((mark.dropWhile (· ≠ '\t')).drop 1) touched
          else if kind = 'R' ∨ kind = 'C' then
            match rest with
            | source :: path :: rest =>
                scan hit rest sha date (note (hit source || hit path) sha date touched)
            | [path] => note (hit path) sha date touched
            | [] => touched
          else
            match rest with
            | path :: rest => scan hit rest sha date (note (hit path) sha date touched)
            | [] => touched

/-- `_tree_matches`: an entry is `<mode> <type> <object>`, a tab and the path. -/
def treeMatches (isDecimal : Char → Bool) (prdId : List Char) (entries : List (List Char)) :
    List (List Char) :=
  entries.filterMap fun entry =>
    let path := (entry.dropWhile (· ≠ '\t')).drop 1
    let kind := ((entry.takeWhile (· ≠ '\t')).splitOn ' ')[1]?
    if kind = some "blob".toList && boundary isDecimal prdId (basename path) then some path
    else none

structure Version where
  sha : List Char
  date : List Char
  path : List Char
  status : Option String
  frontmatter : Dict String Json
  text : String

/-- `_status_of` -/
def statusOf (frontmatter : Dict String Json) : Option String :=
  match Dict.lookup frontmatter "status" with
  | some (.str s) => some (String.ofList ((Text.stripChars s.toList).map Char.toLower))
  | _ => none

def approvedFamily : List String := ["approved", "implemented", "done", "delivered", "complete"]

def implementedFamily : List String := approvedFamily.filter (· ≠ "approved")

def isApproved (status : Option String) : Bool := status.any fun s => decide (s ∈ approvedFamily)

/-! ## Requirements -/

structure BaselineRequirement where
  requirementId : String
  acceptanceCriteria : List String
  evidenceArtifact : String
  callChain : ChainDeclaration
  deriving DecidableEq

inductive BaselineStatus where
  | resolved
  | baselineUnresolvable
  | notApplicable
  deriving DecidableEq

inductive UnresolvableReason where
  | noGit
  | untracked
  | shallowClone
  | approvalUncommitted
  | ambiguousId
  | currentUnparseable
  | versionUnreadable
  deriving DecidableEq

inductive BaselineFinding where
  | baselineReapproved (first newest : List Char)
  | statusRegressed (current : String)
  | shallowClone (first : List Char)

structure BaselineResolution where
  prdId : List Char
  status : BaselineStatus
  reason : Option UnresolvableReason := none
  currentStatus : Option String := none
  baseline : Option Version := none
  approvals : List (List Char × List Char) := []
  requirements : List BaselineRequirement := []
  chains : Dict String ChainDeclaration := []
  findings : List BaselineFinding := []
  safetyCriticalInHistory : Bool := false
  implementedInHistory : Bool := false

/-- The repository and its working tree: the first-parent line of `HEAD`, the directory of the
PRD's file with its files, and the file's text where it reads. -/
structure Checkout where
  git : Bool := true
  line : List Commit
  dir : List Char
  files : List (List Char)
  text : Option String
  tracked : Bool := true
  shallow : Bool := false

section

variable (readers : Readers) (prdId : List Char)

/-- `_history`; nothing is an ambiguous identifier. -/
def history (line : List Commit) (dir : List Char) :
    Option (List (List Char × List Char × List Char)) :=
  let hit := fun path => boundary readers.isDecimal prdId (basename path)
  let touched := scan hit (gitLog (readers.pathspec dir prdId) line) [] [] []
  touched.foldlM (fun commits m => do
    -- `git ls-tree` of the commit
    let entries := ((line.find? fun commit => commit.sha = m.1).map (·.entries dir)).getD []
    match treeMatches readers.isDecimal prdId entries with
    | [] => some commits
    | [path] => some (commits ++ [(m.1, m.2, path)])
    | _ => none) []

/-- `_read_version` -/
def readVersion (line : List Commit) (m : List Char × List Char × List Char) : Option Version :=
  ((line.find? fun commit => commit.sha = m.1).bind (·.blob m.2.2)).map fun text =>
    { sha := m.1, date := m.2.1, path := m.2.2
      status := statusOf (readers.parseFrontmatter text)
      frontmatter := readers.parseFrontmatter text
      text }

/-- `_SHORT_KEY_RE` -/
def shortKey : Regex.Pattern :=
  Regex.seq Regex.start (Regex.seq (Regex.opt (Regex.char (· = 'N')))
    (Regex.seq (Regex.literal "FR") (Regex.seq (Regex.plus (Regex.char readers.isDecimal))
      Regex.stop)))

/-- `_FULL_KEY_RE` -/
def fullKey : Regex.Pattern :=
  Regex.seq Regex.start (Regex.seq (Regex.literal "PRD-")
    (Regex.seq (Regex.plus (Regex.char (· ≠ '\n'))) (Regex.seq (Regex.literal "-")
      (Regex.seq (Regex.opt (Regex.char (· = 'N'))) (Regex.seq (Regex.literal "FR")
        (Regex.seq (Regex.plus (Regex.char readers.isDecimal)) Regex.stop))))))

/-- `_full_chain_id` -/
def fullChainId (key : String) : Option String :=
  if Regex.search (shortKey readers) key then some (String.ofList prdId ++ "-" ++ key)
  else if Regex.search (fullKey readers) key then some key
  else none

def chainsOf (text : String) : Dict String ChainDeclaration :=
  (readers.declaredChains text).foldl (fun chains m =>
    match fullChainId readers prdId m.1 with
    | some fullId => Dict.set chains fullId m.2
    | none => chains) []

/-- `_requirements` -/
def requirementsOf (frontmatter : Dict String Json) (text : String) :
    Dict String ChainDeclaration × List BaselineRequirement :=
  let chains := chainsOf readers prdId text
  let raw : List Json :=
    match Dict.lookup frontmatter "verification" with
    | some (.obj verification) =>
        match Dict.lookup verification "mappings" with
        | some (.arr mappings) => mappings
        | _ => []
    | _ => []
  (chains, raw.filterMap fun entry =>
    match entry with
    | .obj entry =>
        match Dict.lookup entry "requirement_id" with
        | some (.str requirementId) =>
            some
              { requirementId
                acceptanceCriteria :=
                  match Dict.lookup entry "acceptance_criteria" with
                  | some (.arr criteria) => criteria.map readers.str
                  | some (.str criterion) => [criterion]
                  | _ => []
                evidenceArtifact :=
                  match Dict.lookup entry "evidence_artifact" with
                  | some (.str artifact) => artifact
                  | _ => ""
                callChain := (Dict.lookup chains requirementId).getD {} }
        | _ => none
    | _ => none)

/-- `requirements_from_text` -/
def requirementsFromText (text : String) : List BaselineRequirement :=
  (requirementsOf readers prdId (readers.parseFrontmatter text) text).2

/-- The versions that enter the approved family, oldest first. -/
@[grind =] def approvalsOf : Bool → List Version → List Version
  | _, [] => []
  | before, version :: rest =>
      let approved := isApproved version.status
      (if approved && !before then [version] else []) ++ approvalsOf approved rest

/-- `_no_approval_reason` -/
def Checkout.noApprovalReason (w : Checkout) (hasHistory : Bool) : UnresolvableReason :=
  if !hasHistory && !w.tracked then .untracked
  else if w.shallow then .shallowClone
  else .approvalUncommitted

/-- `resolve_requirement_baseline` -/
def resolveRequirementBaseline (w : Checkout) : BaselineResolution :=
  if !w.git then { prdId, status := .baselineUnresolvable, reason := some .noGit }
  else
    match statusOf (readers.parseFrontmatter (w.text.getD "")) with
    | none => { prdId, status := .baselineUnresolvable, reason := some .currentUnparseable }
    | some current =>
        match history readers prdId w.line w.dir with
        | none =>
            { prdId, status := .baselineUnresolvable, reason := some .ambiguousId
              currentStatus := some current }
        | some commits =>
            if 2 ≤ (w.files.filter (boundary readers.isDecimal prdId)).length then
              { prdId, status := .baselineUnresolvable, reason := some .ambiguousId
                currentStatus := some current }
            else
              match commits.reverse.mapM (readVersion readers w.line) with
              | none =>
                  { prdId, status := .baselineUnresolvable, reason := some .versionUnreadable
                    currentStatus := some current }
              | some versions =>
                  match approvalsOf false versions with
                  | [] =>
                      if current ∈ approvedFamily then
                        { prdId, status := .baselineUnresolvable
                          reason := some (w.noApprovalReason (!commits.isEmpty))
                          currentStatus := some current }
                      else { prdId, status := .notApplicable, currentStatus := some current }
                  | baseline :: later =>
                      let parsed := requirementsOf readers prdId baseline.frontmatter baseline.text
                      { prdId, status := .resolved, currentStatus := some current
                        baseline := some baseline
                        approvals := (baseline :: later).map fun v => (v.sha, v.date)
                        requirements := parsed.2
                        chains := parsed.1
                        findings :=
                          (match later.getLast? with
                            | some newest => [.baselineReapproved baseline.sha newest.sha]
                            | none => []) ++
                          (if current ∈ approvedFamily then [] else [.statusRegressed current]) ++
                          (match versions.head? with
                            | some first =>
                                if isApproved first.status && w.shallow then
                                  [.shallowClone first.sha]
                                else []
                            | none => [])
                        safetyCriticalInHistory := versions.any fun v =>
                          isApproved v.status &&
                            (match Dict.lookup v.frontmatter "safety_critical" with
                              | some (.bool true) => true
                              | _ => false)
                        implementedInHistory := versions.any fun v =>
                          v.status.any fun s => decide (s ∈ implementedFamily) }

/-! ## Drift -/

inductive DriftKind where
  | changed
  | dropped
  | orphaned
  | evidenceNotCheckable
  deriving DecidableEq

structure DriftFinding where
  requirementId : String
  kind : DriftKind
  changedFields : List String := []
  reason : String := ""

def strip (text : String) : String := String.ofList (Text.stripChars text.toList)

/-- `_changed_fields` -/
def changedFields (base now : BaselineRequirement) : List String :=
  (if base.acceptanceCriteria.map strip ≠ now.acceptanceCriteria.map strip then
    ["acceptance_criteria"] else []) ++
  (if strip base.evidenceArtifact ≠ strip now.evidenceArtifact then ["evidence_artifact"]
    else []) ++
  (if base.callChain ≠ now.callChain then ["call_chain"] else [])

/-- `_by_id`; the error is `DuplicateRequirementIdError`. -/
def byId (side : String) (requirements : List BaselineRequirement) :
    Except String (Dict String BaselineRequirement) :=
  requirements.foldlM (fun seen req =>
    if (Dict.lookup seen req.requirementId).isSome then
      .error (side ++ " maps " ++ req.requirementId ++ " more than once")
    else .ok (Dict.set seen req.requirementId req)) []

def isSeparator (c : Char) : Bool := c = '/' || c = '\\'

/-- `PureWindowsPath(text).drive` -/
def hasDrive : List Char → Bool
  | a :: b :: _ => if isSeparator a then isSeparator b else b = ':'
  | _ => false

/-- What stands before a mark, as `str.partition` has it. -/
@[grind =] def beforeMark (mark : List Char) : List Char → List Char
  | [] => []
  | c :: cs => if mark.isPrefixOf (c :: cs) then [] else c :: beforeMark mark cs

/-- `evidence_path` -/
def evidencePath (value : String) : Option String :=
  let text := Text.stripChars
    (beforeMark ['#'] (beforeMark [':', ':'] (Text.stripChars value.toList)))
  if text.isEmpty || text.any Regex.isSpace then none
  else if text.head? = some '/' || hasDrive text then none
  else if ['.', '.'] ∈ text.splitOnP isSeparator then none
  else some (String.ofList text)

/-- `_orphan_findings` -/
def orphanFindings (exist : String → Bool) (wired : List String → Bool)
    (base : BaselineRequirement) : List DriftFinding :=
  (match evidencePath base.evidenceArtifact with
    | none =>
        [{ requirementId := base.requirementId, kind := .evidenceNotCheckable
           reason := "evidence_artifact is not a checkable repository path" }]
    | some path =>
        if exist path then []
        else [{ requirementId := base.requirementId, kind := .orphaned
                reason := "evidence artifact missing" }]) ++
  (if base.callChain.chain ≠ [] ∧ wired base.callChain.chain = false then
    [{ requirementId := base.requirementId, kind := .orphaned
       reason := "call chain no longer verifies" }] else [])

/-- `detect_requirement_drift` -/
def detectRequirementDrift (exist : String → Bool) (wired : List String → Bool)
    (baseline : BaselineResolution) (currentText : String) (currentStatus : Option String) :
    Except String (List DriftFinding) := do
  let _ ← byId "baseline" baseline.requirements
  let current ← byId "current text" (requirementsFromText readers baseline.prdId currentText)
  let checkOrphans := (currentStatus.any fun s => decide (s ∈ implementedFamily)) ||
    baseline.implementedInHistory
  return baseline.requirements.flatMap fun base =>
    (match Dict.lookup current base.requirementId with
      | none => [{ requirementId := base.requirementId, kind := .dropped }]
      | some now =>
          if changedFields base now = [] then []
          else [{ requirementId := base.requirementId, kind := .changed
                  changedFields := changedFields base now }]) ++
    if checkOrphans then orphanFindings exist wired base else []

end

end TrwMcp.Requirements
