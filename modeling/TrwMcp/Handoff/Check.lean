import TrwMcp.Handoff.Validate
import TrwMcp.Intent.ControlPlane

/-!
# The pre-flight of a receiver

Before it acts on a record a receiver asks whether it has the bytes the sender meant, whether the
record is valid, unexpired and still current, whether the files it points to hold what the sender
read, and whether the checkout is where the sender left it. Only `file:` pointers confined to the
repository are opened.
-/

namespace TrwMcp.Handoff.Check

open Lib Intent

/-! ## The repository -/

structure GitState where
  commit : Option String
  treeState : String
  changed : List String
  branch : Option String := none
  deriving DecidableEq

/-- A checkout with its files, by their resolved paths. -/
structure Tree where
  /-- `(base / rest).resolve()`; `none` where it loops -/
  resolve : String → Option String
  /-- `resolved.is_relative_to(base)` -/
  inside : String → Bool
  /-- `path.exists()` -/
  present : String → Bool
  /-- the bytes of a regular file that can be read -/
  read : String → Option ByteArray
  /-- `raw.decode("utf-8", "replace")` -/
  decodeReplace : ByteArray → String

/-- The text of the bytes that were percent-encoded in a row. -/
def flush (decode : ByteArray → String) (pending : List UInt8) : List Char :=
  if pending.isEmpty then [] else (decode ⟨pending.toArray⟩).toList

/-- `_decode`, with the bytes of the run that is being read. -/
@[grind =] def percentDecode (decode : ByteArray → String) (pending : List UInt8) : List Char → List Char
  | [] => flush decode pending
  | '%' :: a :: b :: cs =>
      match hexValue a, hexValue b with
      | some x, some y => percentDecode decode (pending ++ [UInt8.ofNat (16 * x + y)]) cs
      | _, _ => flush decode pending ++ '%' :: percentDecode decode [] (a :: b :: cs)
  | c :: cs => flush decode pending ++ c :: percentDecode decode [] cs

/-- `_ENCODED_DOT.search(text)` -/
@[grind =] def hasEncodedDot : List Char → Bool
  | [] => false
  | '%' :: '2' :: c :: cs => c == 'e' || c == 'E' || hasEncodedDot ('2' :: c :: cs)
  | _ :: cs => hasEncodedDot cs

/-- `confined_path`: the resolved path, or why it was refused. -/
def confinedPath (tree : Tree) (uri : String) : Except String String :=
  let scheme := schemeOf uri
  if scheme ≠ "file" then
    .error ((if scheme = "" then "schemeless" else scheme) ++ " URI: never fetched by check")
  else
    let rest := (uri.toList.dropWhile (· != ':')).drop 1
    let rest := (rest.takeWhile (· != '#')).takeWhile (· != '?')
    if hasEncodedDot rest then .error "percent-encoded dot in a file URI"
    else
      let rest := percentDecode tree.decodeReplace [] rest
      if rest.head? = some '/' then
        .error "absolute path: only repository-relative file: URIs are opened"
      else if rest.any fun c => decide (c.toNat < 0x20) || c == '\x7f' || c == '\\' then
        .error "control character or backslash in a file URI"
      else if rest.isEmpty || (rest.splitOn '/').contains ['.', '.'] then
        .error "empty path or parent-directory segment"
      else
        match tree.resolve (String.ofList rest) with
        | none => .error "unresolvable path (symlink loop)"
        | some resolved =>
            if tree.inside resolved then .ok resolved
            else .error "resolves outside the repository (symlink)"

/-- `read_capped` -/
def readCapped (tree : Tree) (path : String) (cap : Nat) : Option ByteArray :=
  (tree.read path).filter (·.size ≤ cap)

section

variable (lib : Stdlib)

/-- `raw_digest` -/
def rawDigest (raw : ByteArray) : String := "sha256:" ++ lib.sha256 raw

/-- `load`: a file that cannot be read is an input error. -/
def load (raw : Option ByteArray) : Py Json :=
  match raw with
  | some raw => loads lib raw
  | none => throw (.ahrInputError "cannot read")

/-! ## Quotes -/

/-- `_MAX_SOURCE_BYTES` -/
def maxSourceBytes : Nat := 2 * 1024 * 1024

inductive QuoteStatus where
  | matched
  | mismatch
  | drift (observed : String)
  | missing
  | notAccessed (reason : String)
  deriving DecidableEq

/-- `text in content` -/
def isPartOf (text content : String) : Bool :=
  content.toList.tails.any fun rest => text.toList.isPrefixOf rest

/-- `quote_status` -/
def quoteStatus (tree : Tree) (text : Option Json) (source : Json) : QuoteStatus :=
  match source.get? "uri", text with
  | some (.str uri), some (.str text) =>
      match confinedPath tree uri with
      | .error reason => .notAccessed reason
      | .ok path =>
          if !tree.present path then .missing
          else
            match readCapped tree path maxSourceBytes with
            | none => .notAccessed "not a readable regular file of at most 2 MiB"
            | some raw =>
                if source.get? "digest" ≠ some (.str (rawDigest lib raw)) then
                  .drift (rawDigest lib raw)
                else
                  match String.fromUTF8? raw with
                  | none => .notAccessed "source is not UTF-8 text"
                  | some content => if isPartOf text content then .matched else .mismatch
  | _, _ => .notAccessed "no source uri"

/-- The constraints of a record that cite a source. -/
def sourced (doc : Json) : List (Option Json × Json) :=
  match doc.get? "constraints" with
  | some (.arr constraints) =>
      constraints.filterMap fun con =>
        (con.get? "source").map fun source => (con.get? "text", source)
  | _ => []

/-- `_constraint_sources` -/
def constraintSources (tree : Tree) (doc : Json) : List QuoteStatus :=
  (sourced doc).map fun con => quoteStatus lib tree con.1 con.2

/-! ## Currency -/

/-- `_RANK` -/
def rankOf (tier : String) : Py Nat :=
  match tier with
  | "minimal" => pure 0
  | "standard" => pure 1
  | "critical" => pure 2
  | _ => throw (.keyError tier)

/-- `_MAX_RECORD_BYTES` -/
def maxRecordBytes : Nat := 256 * 1024

/-- A `*.json` file of one of the directories that hold records: its path, where that leads, its
bytes if it is a regular file, and whether it is under the project or beside the record. -/
structure Sibling where
  path : String
  real : String
  raw : Option ByteArray
  inProject : Bool
  beside : Bool

/-- `handoff_files`, of the files that are found. -/
def handoffFiles (found : List Sibling) : List Sibling :=
  found.filter fun f => f.raw.any (·.size ≤ maxRecordBytes) && (f.inProject || f.beside)

/-- `_expired` -/
def isExpired (doc : Json) (now : Instant) : Bool :=
  match doc.get? "expires_at" with
  | some (.str raw) =>
      match instant raw with
      | .ok expires => decide (expires ≤ now)
      | .error _ => false
  | _ => false

/-- Records by their handoff id, each with its path. -/
abbrev Records := Dict String (Json × String)

/-- One file of `_records`. -/
def addRecord (doc : Json) (path : String) (found : Records × List String) (other : Sibling) :
    Py (Records × List String) :=
  if other.real = path then return found
  else
    match load lib other.raw with
    | .error (.ahrParseError _) | .error (.ahrInputError _) => return found
    | .error e => throw e
    | .ok sib => do
        if sib.get? "type" ≠ some (.str "handoff") ∨ sib.get? "subject" ≠ doc.get? "subject" then
          return found
        if !(← validate lib sib none).isEmpty then return found
        let hid ← sib.strItem "handoff_id"
        match Dict.lookup found.1 hid with
        | some known =>
            -- one id with two contents
            if (← digest lib sib) ≠ (← digest lib known.1) then return (found.1, found.2 ++ [hid])
            else return found
        | none => return (found.1 ++ [(hid, sib, other.path)], found.2)

/-- `_records`: the valid records of the subject, and the ids seen with two digests. -/
def recordsOf (doc : Json) (path : String) (files : List Sibling) : Py (Records × List String) := do
  let me ← doc.strItem "handoff_id"
  files.foldlM (addRecord lib doc path) ([(me, doc, path)], [])

/-- A record of the subject lists another one in `supersedes`. -/
structure Link where
  record : String
  tier : String
  prior : String
  priorDigest : String
  deriving DecidableEq

/-- What one record lists, of the records there are. -/
def linksFrom (records : Records) (hid : String) (record : Json) : Py (List Link) := do
  let listed ← (← record.listGet "supersedes").mapM fun prior => do
    return Link.mk hid (← record.strItem "tier") (← prior.strItem "handoff_id")
      (← prior.strItem "digest")
  return listed.filter fun link => Dict.has records link.prior

def linksOf (records : Records) : Py (List Link) := do
  return (← records.mapM fun m => linksFrom records m.1 m.2.1).flatten

/-- The record supersedes one of a higher tier. -/
def isDowngrade (records : Records) (link : Link) : Py Bool :=
  match Dict.lookup records link.prior with
  | some prior => do return decide ((← rankOf link.tier) < (← rankOf (← prior.1.strItem "tier")))
  | none => pure false

/-- `is_head` -/
def isHead (links : List Link) (me : String) (now : Instant) (record : String × Json × String) :
    Bool :=
  if links.any (·.prior == record.1) || record.2.1.get? "tier" == some (.str "minimal") then false
  else record.1 == me || !isExpired record.2.1 now

inductive Currency where
  | current
  | superseded
  | fork
  deriving DecidableEq

structure Supersession where
  status : Currency
  supersededBy : List String
  newest : Option (String × String)
  /-- the heads, where there are several -/
  heads : List String
  digestMismatch : List String
  tierDowngrade : List (String × String)
  duplicateId : List String

/-- `supersession` -/
def supersession (doc : Json) (path : String) (files : List Sibling) (now : Instant) :
    Py Supersession := do
  let (records, duplicates) ← recordsOf lib doc path files
  let me ← doc.strItem "handoff_id"
  let myDigest ← digest lib doc
  let links ← linksOf records
  let ranked ← links.mapM fun link => do return (link, ← isDowngrade records link)
  let dated ← (records.filter (isHead links me now)).mapM fun m => do
    return (← instant (← m.2.1.strItem "created_at"), m.1, m.2.2)
  let heads := (dated.insertionSort fun m n => m.1 ≤ n.1).map (·.2)
  let successors := (links.filter (·.prior == me)).map (·.record)
  return {
    status := if 1 < heads.length then .fork
      else if successors.isEmpty then .current else .superseded
    supersededBy := sortedSet successors
    newest := heads.getLast?.filter (·.1 ≠ me)
    heads := if 1 < heads.length then heads.map (·.1) else []
    digestMismatch := sortedSet ((links.filter fun link =>
      link.prior == me && link.priorDigest != myDigest).map (·.record))
    tierDowngrade := (ranked.filter (·.2)).map fun m => (m.1.record, m.1.prior)
    duplicateId := sortedSet duplicates }

/-! ## Pointers -/

inductive PointerStatus where
  | matched (observed : String)
  | drift (observed : String)
  | missing
  | noDigest
  | notAccessed (reason : String)
  deriving DecidableEq

/-- `_observed`: a `record` pointer by its canonical digest, every other kind by its raw bytes. -/
def observed (kind : Option Json) (raw : ByteArray) : Py String :=
  if kind = some (.str "record") then
    match (do digest lib (← load lib (some raw)) : Py String) with
    | .error (.ahrParseError _) | .error (.ahrInputError _) | .error (.jcsError _) =>
        pure (rawDigest lib raw)
    | result => result
  else pure (rawDigest lib raw)

/-- `_pointer_check` -/
def pointerCheck (tree : Tree) (ptr : Json) : Py PointerStatus :=
  match ptr.get? "uri" with
  | some (.str uri) =>
      match confinedPath tree uri with
      | .error reason => pure (.notAccessed reason)
      | .ok path =>
          if !tree.present path then pure .missing
          else
            match ptr.get? "digest" with
            | none => pure .noDigest
            | some recorded =>
                match tree.read path with
                | none => pure (.notAccessed "not a readable regular file")
                | some raw => do
                    let found ← observed lib (ptr.get? "kind") raw
                    return if recorded = .str found then .matched found else .drift found
  | _ => pure (.notAccessed "no uri")

/-- The pointers of a record. -/
def nextRead (doc : Json) : List Json :=
  match doc.get? "next_read" with
  | some (.arr pointers) => pointers
  | _ => []

/-! ## The checkout -/

inductive SidecarStatus where
  | notChecked
  | digestMismatch
  | matched
  | drift
  deriving DecidableEq

/-- `_MAX_SIDECAR_BYTES` -/
def maxSidecarBytes : Nat := 2 ^ 20

/-- `_recorded_changed`: the paths of the sidecar, or why they were not read. -/
def recordedChanged (tree : Tree) (ref : Json) : Except SidecarStatus (List String) :=
  let sidecar := ref.get? "changed_paths"
  match sidecar.bind (·.getStr? "uri"), sidecar.bind (·.getStr? "digest") with
  | some uri, some expected =>
      match confinedPath tree uri with
      | .error _ => .error .notChecked
      | .ok path =>
          match readCapped tree path maxSidecarBytes with
          | none => .error .notChecked
          | some raw =>
              if rawDigest lib raw ≠ expected then .error .digestMismatch
              else
                match String.fromUTF8? raw with
                | none => .error .notChecked
                | some text => .ok ((splitlines text).filter (· ≠ ""))
  | _, _ => .error .notChecked

/-- `set(recorded) == set(changed)` -/
def samePaths (recorded changed : List String) : Bool :=
  recorded.all (changed.contains ·) && changed.all (recorded.contains ·)

/-- `_changed_paths` -/
def changedPaths (tree : Tree) (ref : Json) (now : GitState) : SidecarStatus :=
  match recordedChanged lib tree ref with
  | .error status => status
  | .ok recorded => if samePaths recorded now.changed then .matched else .drift

inductive GitStatus where
  | matched
  | drift
  | diverged
  | abbreviatedCommit
  | unavailable
  | notComparable
  | notRecorded
  deriving DecidableEq

structure GitSection where
  status : GitStatus
  recorded : List (String × Json) := []
  current : Option GitState := none
  commitsSince : Option Nat := none
  changedPaths : Option SidecarStatus := none

/-- `_FULL_COMMIT.fullmatch(text)` -/
def isFullCommit (text : String) : Bool :=
  (text.length == 40 || text.length == 64) &&
    text.toList.all fun c => ('0' ≤ c && c ≤ '9') || ('a' ≤ c && c ≤ 'f')

/-- The `base_ref` a record was written at. -/
def baseRef (doc : Json) : Option Json :=
  match (doc.get? "as_of").bind (·.get? "base_ref") with
  | some (.obj ms) => some (.obj ms)
  | _ => none

end

/-- What a receiver has at hand. `inGit` is false where the record lies outside git; the tree is
then that of the working directory. -/
structure Receiver where
  raw : Option ByteArray
  path : String
  found : List Sibling
  tree : Tree
  expected : Option String
  now : Instant
  inGit : Bool
  git : GitState
  /-- the commits after this one, if it is in the history of `HEAD` -/
  commitsSince : String → Option Nat

section

variable (lib : Stdlib)

/-- The tree states, and the changed paths of two dirty trees. -/
def compareTrees (r : Receiver) (ref : Json) (status : GitStatus) (out : GitSection) : GitSection :=
  if ref.get? "tree_state" = some (.str "dirty") ∧ r.git.treeState = "dirty" then
    let changed := changedPaths lib r.tree ref r.git
    { out with
      changedPaths := some changed
      status := if (changed = .drift ∨ changed = .digestMismatch) ∧ status = .matched then .drift
        else status }
  else { out with status }

/-- `_git_section` -/
def gitSection (r : Receiver) (doc : Json) : GitSection :=
  match baseRef doc with
  | none => { status := .notRecorded }
  | some ref =>
      let recorded := ref.members.filter fun m => ["commit", "tree_state", "branch"].contains m.1
      let commit := (ref.get? "commit").filter (· ≠ .null)
      let treeState := ref.get? "tree_state"
      if commit = none ∧
          (treeState = some (.str "unknown") ∨ treeState = some (.str "not_applicable")) then
        { status := .notComparable, recorded }
      else if !r.inGit then { status := .unavailable, recorded }
      else
        let status := if treeState = some (.str r.git.treeState) then .matched else .drift
        let out : GitSection := { status, recorded, current := some r.git }
        match commit with
        | some (.str c) =>
            if !isFullCommit c then { out with status := .abbreviatedCommit }
            else
              match r.commitsSince c with
              | none => compareTrees lib r ref .diverged out
              | some count => compareTrees lib r ref status { out with commitsSince := some count }
        | _ => compareTrees lib r ref status out

/-! ## The report -/

inductive DigestStatus where
  | notGiven
  | matched
  | mismatch
  deriving DecidableEq

inductive ExpiryStatus where
  | none
  | unparseable
  | expired
  | valid
  deriving DecidableEq

/-- `_expiry` -/
def expiryOf (doc : Json) (now : Instant) : ExpiryStatus :=
  match doc.get? "expires_at" with
  | some (.str raw) =>
      match instant raw with
      | .ok expires => if expires ≤ now then .expired else .valid
      | .error _ => .unparseable
  | _ => .none

structure CheckReport where
  record : String
  handoffId : Option Json
  recomputed : String
  digest : DigestStatus
  findings : List Finding
  expiry : ExpiryStatus
  /-- none where the record is not valid -/
  supersession : Option Supersession
  pointers : List PointerStatus
  git : GitSection
  constraints : List QuoteStatus
  strict : Bool

/-- `_digest_section` -/
def digestStatus (recomputed : String) (expected : Option String) : DigestStatus :=
  match expected with
  | none => .notGiven
  | some expected => if expected = recomputed then .matched else .mismatch

/-- The currency of a valid record. -/
def currencyOf (r : Receiver) (doc : Json) (findings : List Finding) : Py (Option Supersession) :=
  if findings.isEmpty then do
    return some (← supersession lib doc r.path (handoffFiles r.found) r.now)
  else pure none

/-- `check_record`, without the warning about paths outside `objective.paths`. -/
def checkRecord (r : Receiver) (strict : Bool) : Py CheckReport := do
  let doc ← load lib r.raw
  if doc.get? "type" ≠ some (.str "handoff") then
    throw (.ahrInputError "check takes a handoff record")
  let findings ← validate lib doc none
  let supersession ← currencyOf lib r doc findings
  let recomputed ← Handoff.digest lib doc
  let pointers ← (nextRead doc).mapM (pointerCheck lib r.tree)
  return {
    record := r.path
    handoffId := doc.get? "handoff_id"
    recomputed
    digest := digestStatus recomputed r.expected
    findings
    expiry := expiryOf doc r.now
    supersession
    pointers
    git := gitSection lib r doc
    constraints := constraintSources lib r.tree doc
    strict }

end

/-- The statuses of a pointer that are clean. -/
def PointerStatus.clean (strict : Bool) : PointerStatus → Bool
  | .matched _ => true
  | .noDigest | .notAccessed _ => !strict
  | .drift _ | .missing => false

def GitStatus.clean (strict : Bool) : GitStatus → Bool
  | .matched => true
  | .notRecorded | .notComparable => !strict
  | .drift | .diverged | .abbreviatedCommit | .unavailable => false

def QuoteStatus.clean (strict : Bool) : QuoteStatus → Bool
  | .matched => true
  | .notAccessed _ => !strict
  | .mismatch | .drift _ | .missing => false

/-- The record is current, and nothing is wrong with its siblings. -/
def Supersession.clean (s : Supersession) : Bool :=
  s.status == .current && s.tierDowngrade.isEmpty && s.duplicateId.isEmpty

/-- `_failing` -/
def failing (report : CheckReport) : List String :=
  ([("digest", if report.strict then report.digest != .matched else report.digest == .mismatch),
    ("validity", !report.findings.isEmpty),
    ("expiry", report.expiry != .valid && report.expiry != .none),
    ("supersession", !report.supersession.any (·.clean)),
    ("pointers", report.pointers.any fun p => !p.clean report.strict),
    ("git", !report.git.status.clean report.strict),
    ("constraints", report.constraints.any fun q => !q.clean report.strict)].filter (·.2)).map
      (·.1)

/-- `is_clean` -/
def isClean (report : CheckReport) : Bool := (failing report).isEmpty

end TrwMcp.Handoff.Check
