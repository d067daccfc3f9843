import TrwMcp.Intent.Weaken

/-!
# The split-commit detector

The scan walks the outgoing commits oldest first. It keeps one record for each weakened claim, with
the anchors the claim had before, drops the record when the claim comes back or is superseded, and
reports the first unapproved edit under a recorded anchor.
-/

namespace TrwMcp.Intent

open Lib

/-- What the scan reads of one commit: its contract, the paths it changes, the hash of its diff and
the control-plane findings against its parent. -/
structure Commit where
  sha : String
  contract : Option Contract
  changedPaths : List String
  diffHash : String
  locatorFindings : List String := []

/-- One commit with the contract of its parent. -/
structure RevisionPair where
  base : Option Contract
  commit : Commit

/-- A linear outgoing range, oldest first. -/
structure OutgoingRange where
  base : Option Contract
  commits : List Commit
  distinct : (commits.map (·.sha)).Nodup

@[grind =] def revisionPairs (base : Option Contract) : List Commit → List RevisionPair
  | [] => []
  | c :: cs => ⟨base, c⟩ :: revisionPairs c.contract cs

structure Pending where
  weakeningSha : String
  condition : String
  anchors : List String
  original : Option MustNotHappenClaim
  deriving DecidableEq

structure WeakenEditFinding where
  claimId : String
  condition : String
  weakeningSha : String
  editingSha : String
  editedPaths : List String
  diffHash : String
  detail : String
  deriving DecidableEq

/-- One line of the approvals file. -/
structure Approval where
  diffHash : String
  sessionId : String

/-- A different session approved this very diff. -/
def approvalExists (approvals : List Approval) (session diffHash : String) : Bool :=
  diffHash ≠ "" && approvals.any fun a =>
    a.diffHash = diffHash && a.sessionId ≠ "" && a.sessionId ≠ session

/-- `_claim` -/
def claimOf (contract : Option Contract) (claimId : String) : Option MustNotHappenClaim :=
  contract.bind fun k => Dict.lookup k.byId claimId

/-- `evaluate_locator_weakening` -/
def evaluateLocatorWeakening (findings : List String) : List WeakenedClaim :=
  findings.map fun finding => ⟨"<control-plane>", "C9", finding⟩

def weakeningForPair (pair : RevisionPair) : List WeakenedClaim :=
  evaluateClaimWeakening pair.base pair.commit.contract ++
    evaluateLocatorWeakening pair.commit.locatorFindings

/-- The contract gives the claim back its value, or validly supersedes it. -/
def restores (original : MustNotHappenClaim) (contract : Option Contract) (claimId : String) :
    Bool :=
  match contract, claimOf contract claimId with
  | some k, some current => current == original || isValidSupersession original current k
  | _, _ => false

/-- `_cleared` -/
def cleared (pending : Pending) (candidate : Option Contract) (claimId : String) : Bool :=
  pending.original.any fun original => restores original candidate claimId

/-- The record of one hit replaces an earlier one of its claim. -/
def recordHit (pair : RevisionPair) (pending : Dict String Pending) (hit : WeakenedClaim) :
    Dict String Pending :=
  let anchored := claimOf pair.base hit.claimId
  let anchors := (anchored.map (·.anchors)).getD []
  if anchors = [] then pending
  else Dict.set pending hit.claimId ⟨pair.commit.sha, hit.condition, anchors, anchored⟩

/-- The records after the refresh from one pair. -/
def refresh (pair : RevisionPair) (pending : Dict String Pending) : Dict String Pending :=
  (weakeningForPair pair).foldl (recordHit pair)
    (pending.filter fun m => !cleared m.2 pair.commit.contract m.1)

/-- The changed paths under the recorded anchors. -/
def touched (entry : Pending) (changed : List String) : List String :=
  changed.filter fun path => entry.anchors.any fun a => anchorMatches a path

section

variable (approvals : List Approval) (session : String)

/-- A record whose anchors the commit changes without an approval. -/
def isReported (commit : Commit) (m : String × Pending) : Bool :=
  touched m.2 commit.changedPaths ≠ [] && !approvalExists approvals session commit.diffHash

def findingOf (commit : Commit) (m : String × Pending) : WeakenEditFinding where
  claimId := m.1
  condition := m.2.condition
  weakeningSha := m.2.weakeningSha
  editingSha := commit.sha
  editedPaths := touched m.2 commit.changedPaths
  diffHash := commit.diffHash
  detail := "claim weakened and its protected anchors edited without an independent approval"

/-- `_scan_pair` -/
def scanPair (pair : RevisionPair) (pending : Dict String Pending) :
    Dict String Pending × Option WeakenEditFinding :=
  let pending := refresh pair pending
  match pending.find? (isReported approvals session pair.commit) with
  | none => (pending, none)
  | some m => (pending.filter (·.1 ≠ m.1), some (findingOf pair.commit m))

/-- What the walk over the range keeps. -/
structure Walk where
  pending : Dict String Pending := []
  seen : List String := []
  findings : List WeakenEditFinding := []

/-- One pair of the walk; a commit already seen is skipped. -/
def walkPair (w : Walk) (pair : RevisionPair) : Walk :=
  if pair.commit.sha ∈ w.seen then w
  else
    let (pending, finding) := scanPair approvals session pair w.pending
    ⟨pending, pair.commit.sha :: w.seen, w.findings ++ finding.toList⟩

/-- `_detect_range_weaken_then_edit` -/
def detectRangeWeakenThenEdit (range : OutgoingRange) : List WeakenEditFinding :=
  ((revisionPairs range.base range.commits).foldl (walkPair approvals session) {}).findings

end

/-! ## What the claim asks for -/

section

variable (approvals : List Approval) (session : String)

/-- The first pair weakens the claim, whose parent anchored the path; the last one changes the path
without an approval; in between the claim is not given back and not superseded. -/
structure WeakenedThenEdited (claimId path : String) (first : RevisionPair)
    (later : List RevisionPair) : Prop where
  weakened : ∃ hit ∈ weakeningForPair first, hit.claimId = claimId
  anchored : ∃ claim, claimOf first.base claimId = some claim ∧ claim.coversPath path = true ∧
    ∀ pair ∈ later, restores claim pair.commit.contract claimId = false
  edited : ∀ last ∈ (first :: later).getLast?, path ∈ last.commit.changedPaths ∧
    approvalExists approvals session last.commit.diffHash = false

/-- A commit that weakens the claim again finds it still anchoring the path, and what it finds is
not given back or superseded later. -/
@[grind =] def RecordStands (claimId path : String) : List RevisionPair → Prop
  | [] => True
  | pair :: later =>
      ((∃ hit ∈ weakeningForPair pair, hit.claimId = claimId) →
        ∀ claim, claimOf pair.base claimId = some claim → claim.anchors ≠ [] →
          claim.coversPath path = true ∧
            ∀ next ∈ later, restores claim next.commit.contract claimId = false) ∧
      RecordStands claimId path later

end

/-! ## The records -/

theorem lookup_filter {ν : Type} {d : Dict String ν} {keep : String × ν → Bool} {k : String} {v : ν}
    (h : Dict.lookup d k = some v) (hkeep : keep (k, v) = true) :
    Dict.lookup (d.filter keep) k = some v := by
  induction d with
  | nil => cases h
  | cons m d ih =>
      obtain ⟨l, w⟩ := m
      rw [Dict.lookup_cons] at h
      by_cases hl : l = k
      · subst hl
        rw [if_pos rfl] at h
        obtain rfl := Option.some.inj h
        rw [List.filter_cons_of_pos hkeep, Dict.lookup_cons, if_pos rfl]
      · rw [if_neg hl] at h
        rw [List.filter_cons]
        split
        · rw [Dict.lookup_cons, if_neg hl, ih h]
        · exact ih h

/-- The record of a claim that was recorded from this value. -/
def IsRecord (claim : MustNotHappenClaim) (entry : Pending) : Prop :=
  entry.anchors = claim.anchors ∧ entry.original = some claim

section

variable {pair : RevisionPair} {claimId : String}

theorem lookup_recordHit {pending : Dict String Pending} {hit : WeakenedClaim}
    {claim : MustNotHappenClaim} (hclaim : claimOf pair.base claimId = some claim)
    (hanchors : claim.anchors ≠ []) :
    if hit.claimId = claimId then
      ∃ entry, Dict.lookup (recordHit pair pending hit) claimId = some entry ∧ IsRecord claim entry
    else Dict.lookup (recordHit pair pending hit) claimId = Dict.lookup pending claimId := by
  unfold recordHit
  split
  · next hid =>
    subst hid
    simp only [hclaim, Option.map_some, Option.getD_some, hanchors, if_false,
      Dict.lookup_set_self]
    exact ⟨_, rfl, rfl, rfl⟩
  · next hid =>
    dsimp only
    split
    · rfl
    · exact Dict.lookup_set_ne _ (Ne.symm hid) _

theorem lookup_hits {pending : Dict String Pending} {hits : List WeakenedClaim}
    {claim : MustNotHappenClaim} (hclaim : claimOf pair.base claimId = some claim)
    (hanchors : claim.anchors ≠ []) :
    ((∃ hit ∈ hits, hit.claimId = claimId) →
      ∃ entry, Dict.lookup (hits.foldl (recordHit pair) pending) claimId = some entry ∧
        IsRecord claim entry) ∧
    ((¬∃ hit ∈ hits, hit.claimId = claimId) →
      Dict.lookup (hits.foldl (recordHit pair) pending) claimId = Dict.lookup pending claimId) := by
  induction hits using List.reverseRecOn with
  | nil => simp
  | append_singleton hits hit ih =>
      have hlast := @lookup_recordHit pair claimId (hits.foldl (recordHit pair) pending) hit claim
        hclaim hanchors
      rw [List.foldl_append, List.foldl_cons, List.foldl_nil]
      by_cases hid : hit.claimId = claimId
      · rw [if_pos hid] at hlast
        exact ⟨fun _ => hlast, fun hno => absurd ⟨hit, by simp, hid⟩ hno⟩
      · rw [if_neg hid] at hlast
        have hiff : (∃ h ∈ hits ++ [hit], h.claimId = claimId) ↔
            ∃ h ∈ hits, h.claimId = claimId := by
          simp [hid]
        rw [hiff, hlast]
        exact ih

theorem lookup_hits_unanchored {pending : Dict String Pending} {hits : List WeakenedClaim}
    (hnone : ∀ claim, claimOf pair.base claimId = some claim → claim.anchors = []) :
    Dict.lookup (hits.foldl (recordHit pair) pending) claimId = Dict.lookup pending claimId := by
  induction hits using List.reverseRecOn with
  | nil => rfl
  | append_singleton hits hit ih =>
      rw [List.foldl_append, List.foldl_cons, List.foldl_nil, recordHit]
      split
      · exact ih
      · next hanchors =>
        have hne : claimId ≠ hit.claimId := by
          rintro rfl
          cases hclaim : claimOf pair.base hit.claimId with
          | none => simp [hclaim] at hanchors
          | some claim => simp [hclaim, hnone claim hclaim] at hanchors
        rw [Dict.lookup_set_ne _ hne, ih]

end

/-! ## The walk -/

section

variable {approvals : List Approval} {session : String} {claimId path : String}

/-- The walk reported something, or it holds a record of the claim that anchors the path and that
none of the later commits clears. -/
def Watched (claimId path : String) (later : List RevisionPair) (w : Walk) : Prop :=
  w.findings ≠ [] ∨ ∃ entry claim, Dict.lookup w.pending claimId = some entry ∧
    IsRecord claim entry ∧ claim.coversPath path = true ∧
    ∀ pair ∈ later, restores claim pair.commit.contract claimId = false

theorem mem_of_find?_none {ν : Type} {d : Dict String ν} {p : String × ν → Bool}
    (h : d.find? p = none) {k : String} {v : ν} (hv : Dict.lookup d k = some v) :
    p (k, v) = false := by
  have := List.find?_eq_none.mp h _ (Dict.mem_of_lookup hv)
  simpa using this

theorem findings_mono {w : Walk} {pair : RevisionPair} (h : w.findings ≠ []) :
    (walkPair approvals session w pair).findings ≠ [] := by
  unfold walkPair
  split
  · exact h
  · exact List.append_ne_nil_of_left_ne_nil h _

/-- A pair that ends with no report keeps the refreshed records; a pair that changes the path of a
refreshed record without an approval reports. -/
theorem walkPair_of_record {w : Walk} {pair : RevisionPair} {entry : Pending}
    {claim : MustNotHappenClaim} (hnew : pair.commit.sha ∉ w.seen)
    (hentry : Dict.lookup (refresh pair w.pending) claimId = some entry)
    (hrecord : IsRecord claim entry) (hcovers : claim.coversPath path = true) :
    ((walkPair approvals session w pair).findings ≠ [] ∨
      Dict.lookup (walkPair approvals session w pair).pending claimId = some entry) ∧
    (path ∈ pair.commit.changedPaths →
      approvalExists approvals session pair.commit.diffHash = false →
      (walkPair approvals session w pair).findings ≠ []) := by
  simp only [walkPair, hnew, if_false, scanPair]
  cases hfind : (refresh pair w.pending).find? (isReported approvals session pair.commit) with
  | some m => simp
  | none =>
      refine ⟨.inr hentry, fun hpath happroval => ?_⟩
      have hnot := mem_of_find?_none hfind hentry
      have htouched : path ∈ touched entry pair.commit.changedPaths := by
        refine List.mem_filter.mpr ⟨hpath, ?_⟩
        rw [hrecord.1]
        exact hcovers
      simp [isReported, happroval, List.ne_nil_of_mem htouched] at hnot

/-- The refresh of a pair that does not clear the record keeps it, or renews it from a parent that
still anchors the path. -/
theorem refresh_watched {pending : Dict String Pending} {pair : RevisionPair}
    {later : List RevisionPair} {entry : Pending} {claim : MustNotHappenClaim}
    (hentry : Dict.lookup pending claimId = some entry) (hrecord : IsRecord claim entry)
    (hcovers : claim.coversPath path = true)
    (hkept : ∀ p ∈ pair :: later, restores claim p.commit.contract claimId = false)
    (hstands : RecordStands claimId path (pair :: later)) :
    ∃ entry' claim', Dict.lookup (refresh pair pending) claimId = some entry' ∧
      IsRecord claim' entry' ∧ claim'.coversPath path = true ∧
      ∀ p ∈ later, restores claim' p.commit.contract claimId = false := by
  have hfilter : Dict.lookup (pending.filter fun m => !cleared m.2 pair.commit.contract m.1)
      claimId = some entry := by
    refine lookup_filter hentry ?_
    simp [cleared, hrecord.2, hkept pair (by simp)]
  have hlater : ∀ p ∈ later, restores claim p.commit.contract claimId = false :=
    fun p hp => hkept p (List.mem_cons_of_mem _ hp)
  cases hbase : claimOf pair.base claimId with
  | none =>
      refine ⟨entry, claim, ?_, hrecord, hcovers, hlater⟩
      rw [refresh, lookup_hits_unanchored (by simp [hbase]), hfilter]
  | some fresh =>
      by_cases hanchors : fresh.anchors = []
      · refine ⟨entry, claim, ?_, hrecord, hcovers, hlater⟩
        rw [refresh, lookup_hits_unanchored (by simp [hbase, hanchors]), hfilter]
      · have hhits := @lookup_hits pair claimId
          (pending.filter fun m => !cleared m.2 pair.commit.contract m.1) (weakeningForPair pair)
          fresh hbase hanchors
        by_cases hhit : ∃ hit ∈ weakeningForPair pair, hit.claimId = claimId
        · obtain ⟨entry', hentry', hrecord'⟩ := hhits.1 hhit
          obtain ⟨hcovers', hkept'⟩ := hstands.1 hhit fresh hbase hanchors
          exact ⟨entry', fresh, hentry', hrecord', hcovers', hkept'⟩
        · refine ⟨entry, claim, ?_, hrecord, hcovers, hlater⟩
          rw [refresh, hhits.2 hhit, hfilter]

theorem foldl_findings_mono {w : Walk} {pairs : List RevisionPair} (h : w.findings ≠ []) :
    (pairs.foldl (walkPair approvals session) w).findings ≠ [] := by
  induction pairs generalizing w with
  | nil => exact h
  | cons pair pairs ih => exact ih (findings_mono h)

theorem seen_walkPair {w : Walk} {pair : RevisionPair} :
    ∀ sha ∈ (walkPair approvals session w pair).seen, sha = pair.commit.sha ∨ sha ∈ w.seen := by
  intro sha h
  unfold walkPair at h
  split at h
  · exact .inr h
  · exact List.mem_cons.mp h

theorem seen_foldl {w : Walk} {pairs : List RevisionPair} :
    ∀ sha ∈ (pairs.foldl (walkPair approvals session) w).seen,
      sha ∈ pairs.map (·.commit.sha) ∨ sha ∈ w.seen := by
  induction pairs generalizing w with
  | nil => exact fun _ h => .inr h
  | cons pair pairs ih =>
      intro sha h
      rcases ih sha h with hmem | hseen
      · exact .inl (List.mem_cons_of_mem _ hmem)
      · rcases seen_walkPair sha hseen with rfl | hw
        · exact .inl (by simp)
        · exact .inr hw

/-- A watched walk reports by the end of the commits it is watched over, if the last of them changes
the path without an approval. -/
theorem Watched.walk {w : Walk} {later : List RevisionPair} (hne : later ≠ [])
    (hw : Watched claimId path later w)
    (hnew : ∀ sha ∈ later.map (·.commit.sha), sha ∉ w.seen)
    (hdistinct : (later.map (·.commit.sha)).Nodup) (hstands : RecordStands claimId path later)
    (hlast : ∀ last ∈ later.getLast?, path ∈ last.commit.changedPaths ∧
      approvalExists approvals session last.commit.diffHash = false) :
    (later.foldl (walkPair approvals session) w).findings ≠ [] := by
  induction later generalizing w with
  | nil => exact absurd rfl hne
  | cons pair later ih =>
      rw [List.foldl_cons]
      rcases hw with hfound | ⟨entry, claim, hentry, hrecord, hcovers, hkept⟩
      · exact foldl_findings_mono (findings_mono hfound)
      · obtain ⟨entry', claim', hentry', hrecord', hcovers', hkept'⟩ :=
          refresh_watched hentry hrecord hcovers hkept hstands
        obtain ⟨hnext, hreport⟩ := @walkPair_of_record approvals session claimId path w pair entry'
          claim' (hnew _ (by simp)) hentry' hrecord' hcovers'
        cases later with
        | nil =>
            obtain ⟨hpath, happroval⟩ := hlast pair rfl
            exact hreport hpath happroval
        | cons next later =>
            rw [List.map_cons, List.nodup_cons] at hdistinct
            refine ih (by simp) ?_ ?_ hdistinct.2 hstands.2 hlast
            · exact hnext.imp_right fun hkeep => ⟨entry', claim', hkeep, hrecord', hcovers', hkept'⟩
            · intro sha hsha hseen
              rcases seen_walkPair sha hseen with rfl | hw
              · exact hdistinct.1 hsha
              · exact hnew sha (List.mem_cons_of_mem _ hsha) hw

theorem refresh_weakened {pending : Dict String Pending} {pair : RevisionPair}
    {claim : MustNotHappenClaim} (hhit : ∃ hit ∈ weakeningForPair pair, hit.claimId = claimId)
    (hbase : claimOf pair.base claimId = some claim) (hcovers : claim.coversPath path = true) :
    ∃ entry, Dict.lookup (refresh pair pending) claimId = some entry ∧ IsRecord claim entry := by
  have hanchors : claim.anchors ≠ [] := by
    intro hnil
    simp [MustNotHappenClaim.coversPath, hnil] at hcovers
  exact (lookup_hits hbase hanchors).1 hhit

end

theorem revisionPairs_shas (base : Option Contract) (commits : List Commit) :
    (revisionPairs base commits).map (·.commit.sha) = commits.map (·.sha) := by
  induction commits generalizing base with
  | nil => rfl
  | cons c cs ih => rw [revisionPairs, List.map_cons, List.map_cons, ih]

/-- A claim over two files, and the three ways it is cut down below. -/
def twoFiles : MustNotHappenClaim := { guardClaim with anchors := ["db/schema.sql", "db/seed.sql"] }

def oneFile : MustNotHappenClaim := { twoFiles with anchors := ["db/seed.sql"] }

def retested : MustNotHappenClaim := { oneFile with falsifiers := [.pytest "tests/test_db.py::test"] }

/-- A commit that leaves a contract with this one claim. -/
def leaving (sha : String) (claim : MustNotHappenClaim) (changed : String) : Commit where
  sha
  contract := some ⟨"", [claim]⟩
  changedPaths := [changed]
  diffHash := "diff " ++ sha

/-- The contract is cut down and the dropped file is edited. -/
def cutThenEdit : OutgoingRange where
  base := some ⟨"", [twoFiles]⟩
  commits := [leaving "a1" oneFile "contract.yaml", leaving "a2" oneFile "db/schema.sql"]
  distinct := by decide

/-- A second hit on the claim, between the cut and the edit. -/
def cutTwiceThenEdit : OutgoingRange where
  base := some ⟨"", [twoFiles]⟩
  commits := [leaving "a1" oneFile "contract.yaml", leaving "a2" retested "contract.yaml",
    leaving "a3" retested "db/schema.sql"]
  distinct := by decide

end TrwMcp.Intent
