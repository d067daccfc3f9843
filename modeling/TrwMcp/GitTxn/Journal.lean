import TrwMcp.GitTxn.Tree
import TrwMcp.Lib.Run

/-!
# The journal of a commit transaction

The operations of `git_commit_transaction.py` on the journals, the claims and the refs of one
repository. An operation reads the repository it finds and yields what it writes, in order, and how
it ends; a process that is killed has made some of the writes only.
-/

namespace TrwMcp.GitTxn

open Lib

inductive TransactionState where
  | prepared
  | reviewed
  | hooksPassed
  | candidatePublished
  | handoffReady
  | candidateOnly
  | failed
  | recovered
deriving DecidableEq

structure TransactionJournal where
  state : TransactionState
  manifestDigest : String := ""
  parentOid : String := ""
  candidateOid : String := ""
  candidateRef : String := ""
  checkedOutRef : String := ""
  sharedIndexDigest : String := ""
  reason : String := ""
  recoveryAction : String := ""
  tombstoned : Bool := false
deriving DecidableEq

structure TransactionManifest where
  transactionId : String
  runId : String
  parentOid : String
  ownership : OwnershipManifest
deriving DecidableEq

structure NativeIntegrationHandoff where
  transactionId : String
  candidateRef : String
  candidateOid : String
  reviewedParentOid : String
  ownedPaths : List String
deriving DecidableEq

/-- The journals and claims are files by transaction id; `head` is none when it is detached. -/
structure Repo where
  journals : String → Option TransactionJournal
  claims : String → Option TransactionManifest
  refs : String → Option String
  head : Option String
  index : String

inductive Write where
  | journal (t : String) (j : TransactionJournal)
  | claim (m : TransactionManifest)
  | release (t : String)
  | ref (name : String) (oid : Option String)
  | head (name : Option String)
  | index (digest : String)
deriving DecidableEq

def Repo.write (repo : Repo) : Write → Repo
  | .journal t j => { repo with journals := Function.update repo.journals t (some j) }
  | .claim m => { repo with claims := Function.update repo.claims m.transactionId (some m) }
  | .release t => { repo with claims := Function.update repo.claims t none }
  | .ref name oid => { repo with refs := Function.update repo.refs name oid }
  | .head name => { repo with head := name }
  | .index digest => { repo with index := digest }

def Repo.writeAll (repo : Repo) (writes : List Write) : Repo := writes.foldl Repo.write repo

/-- The checked-out ref of `snapshot_shared_state`, which raises on a detached or unborn HEAD. -/
def Repo.checkedOut (repo : Repo) : Option String :=
  repo.head.filter fun ref => (repo.refs ref).isSome

/-! ## Calls -/

inductive HookResult where
  | passed
  | blocked
  | mutated
deriving DecidableEq

/-- What the snapshot taken after the ref was written finds. -/
inductive AfterSnapshot where
  | same
  | changed
  | unreadable
deriving DecidableEq

/-- A call of `publish_reviewed_candidate`, and what the validation, the hooks and Git answer. -/
structure PublishRequest where
  manifest : TransactionManifest
  message : String
  requireSignature : Bool
  failures : List String
  hooks : HookResult
  treeBuilds : Bool
  commit : Option String
  refWritable : Bool
  after : AfterSnapshot
  verifies : Bool
deriving DecidableEq

/-- `collect` is one journal file of a `cleanup_candidates` sweep; `move`, `checkout` and `stage`
are other users of the repository. -/
inductive Call where
  | review (m : TransactionManifest) (message : String) (failures : List String)
  | publish (p : PublishRequest)
  | request (t : String) (automatic : Bool) (diff : Option (List Char))
  | recover (t : String)
  | collect (t : String) (age : Int) (referenced deletable : Bool)
  | release (t : String)
  | move (ref : String) (oid : Option String)
  | checkout (ref : Option String)
  | stage (digest : String)
deriving DecidableEq

inductive Result where
  | journal (j : TransactionJournal)
  | integration (j : TransactionJournal) (handoff : Option NativeIntegrationHandoff)
  | collected (gone : Bool)
  | done
  | raised (message : String)
deriving DecidableEq

/-! ## Operations -/

def candidateRefNamespace : String := "refs/trw/commit-candidates"

def candidateRetentionDays : Int := 30

section

variable (canonicalDigest : TransactionManifest → String) (sha256 : String → String)
  (isAlnum : Char → Bool)

def candidateRef (runId transactionId : String) : String :=
  let sanitized := runId.toList.map fun c => if isAlnum c || "-_.".toList.contains c then c else '-'
  candidateRefNamespace ++ "/" ++ String.ofList sanitized ++ "/" ++ transactionId

def messageDigest (message : String) : String := "sha256:" ++ sha256 message

def reviewBound (message : String) : String := "review_bound:" ++ messageDigest sha256 message

def recordCandidateReview (m : TransactionManifest) (message : String) (failures : List String)
    (repo : Repo) : List Write × Result :=
  if (repo.journals m.transactionId).any (·.tombstoned) then
    ([], .raised "review refused: transaction id is tombstoned (reuse rejected)")
  else if failures ≠ [] then
    ([], .raised ("review refused — ownership invalid: " ++ "; ".intercalate (failures.take 5)))
  else
    let journal : TransactionJournal :=
      { state := .reviewed, manifestDigest := canonicalDigest m, parentOid := m.parentOid,
        reason := reviewBound sha256 message }
    ([.claim m, .journal m.transactionId journal], .journal journal)

/-- The journal written before the candidate is built. -/
@[grind =] def preparedJournal (m : TransactionManifest) (checkedOut index : String) : TransactionJournal :=
  { state := .prepared, manifestDigest := canonicalDigest m, parentOid := m.parentOid,
    checkedOutRef := checkedOut, sharedIndexDigest := index }

@[grind =] def publishedJournal (journal : TransactionJournal) (ref oid : String) : TransactionJournal :=
  { journal with state := .candidatePublished, candidateOid := oid, candidateRef := ref }

def buildAndPublishCandidate (p : PublishRequest) (repo : Repo) : List Write × Result :=
  let m := p.manifest
  let t := m.transactionId
  if p.failures ≠ [] then
    ([], .raised ("ownership validation failed: " ++ "; ".intercalate (p.failures.take 5)))
  else
    match repo.checkedOut with
    | none => ([], .raised "git symbolic-ref failed")
    | some checkedOut =>
        let journal := preparedJournal canonicalDigest m checkedOut repo.index
        if !p.treeBuilds then ([.journal t journal], .raised "git write-tree failed")
        else
          match p.commit with
          | none =>
              if p.requireSignature then
                ([.journal t journal,
                    .journal t { journal with state := .failed, reason := "signing_failed" }],
                  .raised "publication blocked: candidate signing failed")
              else ([.journal t journal], .raised "git commit-tree failed")
          | some oid =>
              let ref := candidateRef isAlnum m.runId t
              if (repo.refs ref).isSome || !p.refWritable then
                ([.journal t journal], .raised "git update-ref failed")
              else
                match p.after with
                | .unreadable =>
                    ([.journal t journal, .ref ref (some oid)], .raised "git rev-parse failed")
                | .changed =>
                    ([.journal t journal, .ref ref (some oid), .journal t
                        { journal with state := .failed, reason := "shared_state_drift_detected" }],
                      .raised "shared checkout state changed during candidate construction")
                | .same =>
                    let published := publishedJournal journal ref oid
                    ([.journal t journal, .ref ref (some oid), .journal t published],
                      .journal published)

/-- The journal is a current review of exactly these inputs. -/
def currentReview (p : PublishRequest) (j : TransactionJournal) : Except String Unit :=
  if j.state ≠ .reviewed then
    .error "publication blocked: no current review for this candidate"
  else if j.tombstoned then
    .error "publication blocked: transaction id is tombstoned (reuse rejected)"
  else if j.manifestDigest ≠ canonicalDigest p.manifest then
    .error "publication blocked: candidate content changed since review"
  else if j.parentOid ≠ p.manifest.parentOid then
    .error "publication blocked: reviewed parent changed"
  else if j.reason ≠ reviewBound sha256 p.message then
    .error "publication blocked: commit message changed since review"
  else .ok ()

def publishReviewedCandidate (p : PublishRequest) (repo : Repo) : List Write × Result :=
  let t := p.manifest.transactionId
  match repo.journals t with
  | none => ([], .raised "publication blocked: no current review for this candidate")
  | some j =>
      match currentReview canonicalDigest sha256 p j with
      | .error message => ([], .raised message)
      | .ok () =>
          match p.hooks with
          | .blocked => ([], .raised "publication blocked: hook failed")
          | .mutated =>
              ([.journal t
                  { j with state := .prepared, reason := "hook_mutation_invalidated_review" }],
                .raised "publication blocked: a hook mutated the candidate context")
          | .passed =>
              match buildAndPublishCandidate canonicalDigest isAlnum p repo with
              | (writes, .journal published) =>
                  if p.requireSignature && !p.verifies then
                    (writes ++ [.journal t { published with
                        state := .failed, reason := "signature_verification_failed" }],
                      .raised "publication blocked: required signature did not verify")
                  else (writes, .journal published)
              | unpublished => unpublished

/-- What the tip of the recorded branch says of the reviewed parent. -/
inductive Tip where
  | current
  | advanced
  | unresolvable
deriving DecidableEq

def Repo.tip (repo : Repo) (j : TransactionJournal) : Tip :=
  if j.checkedOutRef ≠ "" ∧ j.checkedOutRef ≠ "(detached)" then
    match repo.refs j.checkedOutRef with
    | none => .unresolvable
    | some oid => if oid ≠ "" ∧ oid ≠ j.parentOid then .advanced else .current
  else .current

def requestIntegration (t : String) (automatic : Bool) (diff : Option (List Char)) (repo : Repo) :
    List Write × Result :=
  match repo.journals t with
  | none => ([], .raised ("no published candidate for transaction " ++ t))
  | some j =>
      if j.candidateOid = "" then ([], .raised ("no published candidate for transaction " ++ t))
      else if automatic then
        let refused :=
          { j with state := .candidateOnly, reason := "automatic_integration_unsupported" }
        ([.journal t refused], .integration refused none)
      else
        match repo.tip j with
        | .unresolvable =>
            ([.journal t { j with state := .failed, reason := "parent_ref_unresolvable" }],
              .raised "handoff blocked: cannot resolve the reviewed branch tip")
        | .advanced =>
            ([.journal t { j with state := .failed, reason := "stale_parent_requires_re_review" }],
              .raised "handoff blocked: the target branch advanced past the reviewed parent")
        | .current =>
            match diff with
            | none => ([], .raised "git diff-tree failed")
            | some names =>
                let ready := { j with state := .handoffReady }
                ([.journal t ready, .release t], .integration ready (some
                  { transactionId := t, candidateRef := j.candidateRef,
                    candidateOid := j.candidateOid, reviewedParentOid := j.parentOid,
                    ownedPaths := (pySplit names).map String.ofList }))

def recoverTransaction (t : String) (repo : Repo) : List Write × Result :=
  match repo.journals t with
  | none => ([], .raised ("no journal for transaction " ++ t))
  | some j =>
      if j.tombstoned then ([], .journal j)
      else if j.candidateRef ≠ "" then
        if (repo.refs j.candidateRef).getD "" ≠ j.candidateOid then
          let lost := { j with state := .failed, reason := "published_candidate_ref_missing" }
          ([.journal t lost, .release t], .journal lost)
        else ([], .journal j)
      else
        let safe := { j with
          state := .recovered, recoveryAction := "safe_to_rebuild_and_re_review" }
        ([.journal t safe], .journal safe)

/-- The sweep collects the candidate: it is old enough and nothing protects it. -/
def expired (j : TransactionJournal) (age : Int) (referenced : Bool) : Bool :=
  !j.tombstoned && decide (age > candidateRetentionDays) &&
    !(j.state = .handoffReady || j.state = .reviewed || referenced)

/-- `update-ref -d` fails when the ref does not hold the recorded oid. -/
def collectCandidate (t : String) (age : Int) (referenced deletable : Bool) (repo : Repo) :
    List Write × Result :=
  match repo.journals t with
  | none => ([], .collected false)
  | some j =>
      if expired j age referenced then
        let deleted := if j.candidateRef ≠ "" ∧ deletable = true ∧
            repo.refs j.candidateRef = some j.candidateOid
          then [.ref j.candidateRef none] else []
        (deleted ++ [.journal t { j with
            state := .failed, reason := "retention_collected", tombstoned := true }, .release t],
          .collected true)
      else ([], .collected false)

def Call.run (repo : Repo) : Call → List Write × Result
  | .review m message failures =>
      recordCandidateReview canonicalDigest sha256 m message failures repo
  | .publish p => publishReviewedCandidate canonicalDigest sha256 isAlnum p repo
  | .request t automatic diff => requestIntegration t automatic diff repo
  | .recover t => recoverTransaction t repo
  | .collect t age referenced deletable => collectCandidate t age referenced deletable repo
  | .release t => ([.release t], .done)
  | .move ref oid => ([.ref ref oid], .done)
  | .checkout ref => ([.head ref], .done)
  | .stage digest => ([.index digest], .done)

end

/-- The transaction whose journal a call writes. -/
def Call.transaction : Call → Option String
  | .review m _ _ => some m.transactionId
  | .publish p => some p.manifest.transactionId
  | .request t _ _ | .recover t | .collect t _ _ _ => some t
  | .release _ | .move _ _ | .checkout _ | .stage _ => none

/-! ## What the operations write -/

section

variable {canonicalDigest : TransactionManifest → String} {sha256 : String → String}
  {isAlnum : Char → Bool} {repo : Repo}

@[simp] theorem Repo.writeAll_nil (repo : Repo) : repo.writeAll [] = repo := rfl

@[simp] theorem Repo.writeAll_cons (repo : Repo) (w : Write) (ws : List Write) :
    repo.writeAll (w :: ws) = (repo.write w).writeAll ws := rfl

@[simp] theorem Repo.write_claim_journals (m : TransactionManifest) :
    (repo.write (.claim m)).journals = repo.journals := rfl

@[simp] theorem Repo.write_release_journals (t : String) :
    (repo.write (.release t)).journals = repo.journals := rfl

@[simp] theorem Repo.write_ref_journals (name : String) (oid : Option String) :
    (repo.write (.ref name oid)).journals = repo.journals := rfl

@[simp] theorem Repo.write_journal_journals (t : String) (j : TransactionJournal) :
    (repo.write (.journal t j)).journals = Function.update repo.journals t (some j) := rfl

theorem Repo.journals_write_self (repo : Repo) (t : String) (j : TransactionJournal) :
    (repo.write (.journal t j)).journals t = some j := Function.update_self ..

theorem Repo.journals_write_ne (repo : Repo) {t u : String} (h : u ≠ t) (j : TransactionJournal) :
    (repo.write (.journal t j)).journals u = repo.journals u := Function.update_of_ne h ..

theorem Repo.refs_write_self (repo : Repo) (name : String) (oid : Option String) :
    (repo.write (.ref name oid)).refs name = oid := Function.update_self ..

theorem Repo.refs_write_ne (repo : Repo) {name name' : String} (h : name' ≠ name)
    (oid : Option String) : (repo.write (.ref name oid)).refs name' = repo.refs name' :=
  Function.update_of_ne h ..

/-- The journal of the publication's transaction is a current review of its inputs. -/
structure Reviewed (canonicalDigest : TransactionManifest → String) (sha256 : String → String)
    (p : PublishRequest) (j : TransactionJournal) : Prop where
  state : j.state = .reviewed
  alive : j.tombstoned = false
  digest : j.manifestDigest = canonicalDigest p.manifest
  parent : j.parentOid = p.manifest.parentOid
  reason : j.reason = reviewBound sha256 p.message

theorem currentReview_eq_ok {p : PublishRequest} {j : TransactionJournal} :
    currentReview canonicalDigest sha256 p j = .ok () ↔ Reviewed canonicalDigest sha256 p j := by
  unfold currentReview
  constructor
  · intro h
    split at h
    · cases h
    · split at h
      · cases h
      · split at h
        · cases h
        · split at h
          · cases h
          · split at h
            · cases h
            · next hstate htomb hdigest hparent hreason =>
                exact ⟨by simpa using hstate, by simpa using htomb, by simpa using hdigest,
                  by simpa using hparent, by simpa using hreason⟩
  · intro h
    simp [h.state, h.alive, h.digest, h.parent, h.reason]

/-- The checks in front of `update-ref` pass, and it creates the ref. -/
structure RefCreated (isAlnum : Char → Bool) (p : PublishRequest) (repo : Repo) : Prop where
  owned : p.failures = []
  attached : repo.checkedOut.isSome
  built : p.treeBuilds = true
  committed : p.commit.isSome
  writable : p.refWritable = true
  free : repo.refs (candidateRef isAlnum p.manifest.runId p.manifest.transactionId) = none

/-- Every way a build ends. -/
inductive Building (canonicalDigest : TransactionManifest → String) (isAlnum : Char → Bool)
    (p : PublishRequest) (repo : Repo) : List Write → Result → Prop where
  | refused (message : String) : Building canonicalDigest isAlnum p repo [] (.raised message)
  | unbuilt (checkedOut message : String) :
      Building canonicalDigest isAlnum p repo
        [.journal p.manifest.transactionId
          (preparedJournal canonicalDigest p.manifest checkedOut repo.index)]
        (.raised message)
  | unsigned (checkedOut message : String) :
      Building canonicalDigest isAlnum p repo
        [.journal p.manifest.transactionId
            (preparedJournal canonicalDigest p.manifest checkedOut repo.index),
          .journal p.manifest.transactionId
            { preparedJournal canonicalDigest p.manifest checkedOut repo.index with
              state := .failed, reason := "signing_failed" }]
        (.raised message)
  | unreadable (checkedOut oid message : String)
      (created : RefCreated isAlnum p repo)
      (after : p.after = .unreadable) :
      Building canonicalDigest isAlnum p repo
        [.journal p.manifest.transactionId
            (preparedJournal canonicalDigest p.manifest checkedOut repo.index),
          .ref (candidateRef isAlnum p.manifest.runId p.manifest.transactionId) (some oid)]
        (.raised message)
  | drifted (checkedOut oid message : String)
      (created : RefCreated isAlnum p repo)
      (after : p.after = .changed) :
      Building canonicalDigest isAlnum p repo
        [.journal p.manifest.transactionId
            (preparedJournal canonicalDigest p.manifest checkedOut repo.index),
          .ref (candidateRef isAlnum p.manifest.runId p.manifest.transactionId) (some oid),
          .journal p.manifest.transactionId
            { preparedJournal canonicalDigest p.manifest checkedOut repo.index with
              state := .failed, reason := "shared_state_drift_detected" }]
        (.raised message)
  | published (checkedOut oid : String) (commit : p.commit = some oid)
      (created : RefCreated isAlnum p repo) :
      Building canonicalDigest isAlnum p repo
        [.journal p.manifest.transactionId
            (preparedJournal canonicalDigest p.manifest checkedOut repo.index),
          .ref (candidateRef isAlnum p.manifest.runId p.manifest.transactionId) (some oid),
          .journal p.manifest.transactionId (publishedJournal
            (preparedJournal canonicalDigest p.manifest checkedOut repo.index)
            (candidateRef isAlnum p.manifest.runId p.manifest.transactionId) oid)]
        (.journal (publishedJournal
          (preparedJournal canonicalDigest p.manifest checkedOut repo.index)
          (candidateRef isAlnum p.manifest.runId p.manifest.transactionId) oid))

theorem building (p : PublishRequest) (repo : Repo) :
    Building canonicalDigest isAlnum p repo
      (buildAndPublishCandidate canonicalDigest isAlnum p repo).1
      (buildAndPublishCandidate canonicalDigest isAlnum p repo).2 := by
  unfold buildAndPublishCandidate
  dsimp only
  split
  · exact .refused _
  · next howned =>
    split
    · exact .refused _
    · next checkedOut hattached =>
        split
        · exact .unbuilt checkedOut _
        · next hbuilt =>
          split
          · split
            · exact .unsigned checkedOut _
            · exact .unbuilt checkedOut _
          · next oid hcommit =>
              split
              · exact .unbuilt checkedOut _
              · next hfree =>
                  simp only [Bool.or_eq_true, not_or, Bool.not_eq_true,
                    Option.isSome_eq_false_iff, Option.isNone_iff_eq_none] at hfree
                  have hcreated : RefCreated isAlnum p repo :=
                    ⟨not_not.mp howned, by rw [hattached]; rfl, by simpa using hbuilt,
                      by rw [hcommit]; rfl, by simpa using hfree.2, hfree.1⟩
                  split
                  · next hafter => exact .unreadable checkedOut oid _ hcreated hafter
                  · next hafter => exact .drifted checkedOut oid _ hcreated hafter
                  · exact .published checkedOut oid hcommit hcreated

/-- Every way a publication ends. -/
inductive Publishing (canonicalDigest : TransactionManifest → String) (sha256 : String → String)
    (isAlnum : Char → Bool) (p : PublishRequest) (repo : Repo) :
    List Write → Result → Prop where
  | refused (message : String) :
      Publishing canonicalDigest sha256 isAlnum p repo [] (.raised message)
  | mutated (j : TransactionJournal) (message : String)
      (found : repo.journals p.manifest.transactionId = some j)
      (reviewed : Reviewed canonicalDigest sha256 p j) :
      Publishing canonicalDigest sha256 isAlnum p repo
        [.journal p.manifest.transactionId
          { j with state := .prepared, reason := "hook_mutation_invalidated_review" }]
        (.raised message)
  | built (j : TransactionJournal) (writes : List Write) (result : Result)
      (found : repo.journals p.manifest.transactionId = some j)
      (reviewed : Reviewed canonicalDigest sha256 p j) (hooks : p.hooks = .passed)
      (building : Building canonicalDigest isAlnum p repo writes result) :
      Publishing canonicalDigest sha256 isAlnum p repo writes result
  | unverified (j published : TransactionJournal) (writes : List Write) (message : String)
      (found : repo.journals p.manifest.transactionId = some j)
      (reviewed : Reviewed canonicalDigest sha256 p j) (hooks : p.hooks = .passed)
      (building : Building canonicalDigest isAlnum p repo writes (.journal published)) :
      Publishing canonicalDigest sha256 isAlnum p repo
        (writes ++ [.journal p.manifest.transactionId { published with
          state := .failed, reason := "signature_verification_failed" }])
        (.raised message)

theorem publishing {p : PublishRequest} {repo : Repo} {writes : List Write} {result : Result}
    (h : publishReviewedCandidate canonicalDigest sha256 isAlnum p repo = (writes, result)) :
    Publishing canonicalDigest sha256 isAlnum p repo writes result := by
  unfold publishReviewedCandidate at h
  dsimp only at h
  split at h
  · cases h
    exact .refused _
  · next j hfound =>
      split at h
      · cases h
        exact .refused _
      · next hreview =>
          have hreviewed := currentReview_eq_ok.mp hreview
          have hbuilding := @building canonicalDigest isAlnum p repo
          split at h
          · cases h
            exact .refused _
          · cases h
            exact .mutated j _ hfound hreviewed
          · next hhooks =>
            split at h
            · next built published hbuilt =>
                rw [hbuilt] at hbuilding
                split at h
                · cases h
                  exact .unverified j published built _ hfound hreviewed hhooks hbuilding
                · cases h
                  exact .built j _ _ hfound hreviewed hhooks hbuilding
            · rw [h] at hbuilding
              exact .built j _ _ hfound hreviewed hhooks hbuilding

def reviewJournal (canonicalDigest : TransactionManifest → String) (sha256 : String → String)
    (m : TransactionManifest) (message : String) : TransactionJournal :=
  { state := .reviewed, manifestDigest := canonicalDigest m, parentOid := m.parentOid,
    reason := reviewBound sha256 message }

theorem review_cases {m : TransactionManifest} {message : String} {failures : List String}
    {writes : List Write} {result : Result}
    (h : recordCandidateReview canonicalDigest sha256 m message failures repo =
      (writes, result)) :
    (writes = [] ∧ ∃ e, result = .raised e) ∨
      ((∀ j, repo.journals m.transactionId = some j → j.tombstoned = false) ∧
        writes = [.claim m, .journal m.transactionId
          (reviewJournal canonicalDigest sha256 m message)] ∧
        result = .journal (reviewJournal canonicalDigest sha256 m message)) := by
  unfold recordCandidateReview at h
  split at h
  · cases h
    exact .inl ⟨rfl, _, rfl⟩
  · next htomb =>
      split at h
      · cases h
        exact .inl ⟨rfl, _, rfl⟩
      · cases h
        refine .inr ⟨fun j hj => ?_, rfl, rfl⟩
        rw [hj] at htomb
        simpa using htomb

theorem request_cases {t : String} {automatic : Bool} {diff : Option (List Char)}
    {writes : List Write} {result : Result}
    (h : requestIntegration t automatic diff repo = (writes, result)) :
    (writes = [] ∧ ∃ e, result = .raised e) ∨
      ∃ j, repo.journals t = some j ∧ j.candidateOid ≠ "" ∧
        ((automatic = true ∧ ∃ reason,
            writes = [.journal t { j with state := .candidateOnly, reason := reason }] ∧
            result = .integration { j with state := .candidateOnly, reason := reason } none) ∨
          (automatic = false ∧ ∃ reason e,
            writes = [.journal t { j with state := .failed, reason := reason }] ∧
            result = .raised e) ∨
          (automatic = false ∧ repo.tip j = .current ∧ ∃ names, diff = some names ∧
            writes = [.journal t { j with state := .handoffReady }, .release t] ∧
            result = .integration { j with state := .handoffReady } (some
              { transactionId := t, candidateRef := j.candidateRef,
                candidateOid := j.candidateOid, reviewedParentOid := j.parentOid,
                ownedPaths := (pySplit names).map String.ofList }))) := by
  unfold requestIntegration at h
  split at h
  · cases h
    exact .inl ⟨rfl, _, rfl⟩
  · next j hj =>
      split at h
      · cases h
        exact .inl ⟨rfl, _, rfl⟩
      · next hoid =>
          split at h
          · next hauto =>
              cases h
              exact .inr ⟨j, hj, hoid, .inl ⟨hauto, _, rfl, rfl⟩⟩
          · next hauto =>
              have hauto : automatic = false := by simpa using hauto
              split at h
              · cases h
                exact .inr ⟨j, hj, hoid, .inr (.inl ⟨hauto, _, _, rfl, rfl⟩)⟩
              · cases h
                exact .inr ⟨j, hj, hoid, .inr (.inl ⟨hauto, _, _, rfl, rfl⟩)⟩
              · next htip =>
                  split at h
                  · cases h
                    exact .inl ⟨rfl, _, rfl⟩
                  · next names =>
                      cases h
                      exact .inr ⟨j, hj, hoid, .inr (.inr ⟨hauto, htip, names, rfl, rfl, rfl⟩)⟩

theorem recover_cases {t : String} {writes : List Write} {result : Result}
    (h : recoverTransaction t repo = (writes, result)) :
    (repo.journals t = none ∧ writes = [] ∧ ∃ e, result = .raised e) ∨
      ∃ j, repo.journals t = some j ∧
        ((writes = [] ∧ result = .journal j ∧ (j.tombstoned = true ∨
            j.candidateRef ≠ "" ∧ (repo.refs j.candidateRef).getD "" = j.candidateOid)) ∨
          (j.tombstoned = false ∧ j.candidateRef ≠ "" ∧
            (repo.refs j.candidateRef).getD "" ≠ j.candidateOid ∧ ∃ reason,
            writes = [.journal t { j with state := .failed, reason := reason }, .release t] ∧
            result = .journal { j with state := .failed, reason := reason }) ∨
          (j.tombstoned = false ∧ j.candidateRef = "" ∧ ∃ action,
            writes = [.journal t { j with state := .recovered, recoveryAction := action }] ∧
            result = .journal { j with state := .recovered, recoveryAction := action })) := by
  unfold recoverTransaction at h
  split at h
  · next hnone =>
      cases h
      exact .inl ⟨hnone, rfl, _, rfl⟩
  · next j hj =>
      refine .inr ⟨j, hj, ?_⟩
      split at h
      · next htomb =>
          cases h
          exact .inl ⟨rfl, rfl, .inl htomb⟩
      · next htomb =>
          have halive : j.tombstoned = false := by simpa using htomb
          split at h
          · next href =>
              split at h
              · next hlost =>
                  cases h
                  exact .inr (.inl ⟨halive, href, hlost, _, rfl, rfl⟩)
              · next hkept =>
                  cases h
                  exact .inl ⟨rfl, rfl, .inr ⟨href, not_not.mp hkept⟩⟩
          · next href =>
              cases h
              exact .inr (.inr ⟨halive, not_not.mp href, _, rfl, rfl⟩)

theorem collect_cases {t : String} {age : Int} {referenced deletable : Bool}
    {writes : List Write} {result : Result}
    (h : collectCandidate t age referenced deletable repo = (writes, result)) :
    (writes = [] ∧ result = .collected false) ∨
      ∃ j reason, repo.journals t = some j ∧ expired j age referenced = true ∧
        result = .collected true ∧ writes = (if j.candidateRef ≠ "" ∧ deletable = true ∧
            repo.refs j.candidateRef = some j.candidateOid
          then [.ref j.candidateRef none] else []) ++
          [.journal t { j with state := .failed, reason := reason, tombstoned := true },
            .release t] := by
  unfold collectCandidate at h
  split at h
  · cases h
    exact .inl ⟨rfl, rfl⟩
  · next j hj =>
      split at h
      · next hgone =>
          cases h
          exact .inr ⟨j, _, hj, hgone, rfl, rfl⟩
      · cases h
        exact .inl ⟨rfl, rfl⟩

end

end TrwMcp.GitTxn
