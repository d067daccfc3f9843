import TrwMcp.GitTxn.Journal

/-!
# Handoffs of live candidates

The gate of `request_integration` looks at the candidate oid and at the tip of the branch. Whether
the candidate is still live is in the history: what was last done to the transaction.
-/

namespace TrwMcp.GitTxn

open Lib

structure Event where
  call : Call
  writes : List Write
  result : Result
deriving DecidableEq

/-- What a call says of a transaction: reviewed, published, or past use. -/
inductive Standing where
  | review (m : TransactionManifest) (message : String)
  | candidate (p : PublishRequest)
  | spoiled
deriving DecidableEq

/-- A review and a publication that return, a call that fails after it wrote the journal, a recovery
that wrote it, and the retention sweep. An automatic request says nothing. -/
def standing (t : String) (e : Event) : Option Standing :=
  match e.call, e.result with
  | .review m message _, .journal _ =>
      if m.transactionId = t then some (.review m message) else none
  | .publish p, .journal _ => if p.manifest.transactionId = t then some (.candidate p) else none
  | .publish p, .raised _ =>
      if p.manifest.transactionId = t ∧ e.writes ≠ [] then some .spoiled else none
  | .request t' _ _, .raised _ => if t' = t ∧ e.writes ≠ [] then some .spoiled else none
  | .recover t', .journal _ => if t' = t ∧ e.writes ≠ [] then some .spoiled else none
  | .collect t' _ _ _, .collected true => if t' = t then some .spoiled else none
  | _, _ => none

section

variable (canonicalDigest : TransactionManifest → String) (sha256 : String → String)
  (isAlnum : Char → Bool)

def CallStep (repo : Repo) (e : Event) (repo' : Repo) : Prop :=
  e.call.run canonicalDigest sha256 isAlnum repo = (e.writes, e.result) ∧
    repo' = repo.writeAll e.writes

/-- A request that passes the gate finds the candidate live and under its ref, and an automatic one
finds a transaction that is not tombstoned. -/
def InOrder (history : List Event) (repo : Repo) (e : Event) : Prop :=
  ∀ t automatic diff j, e.call = .request t automatic diff → repo.journals t = some j →
    j.candidateOid ≠ "" →
    if automatic then j.tombstoned = false
    else repo.tip j = .current → diff.isSome →
      (∃ p, latest (standing t) history = some (.candidate p)) ∧
        repo.refs j.candidateRef = some j.candidateOid

/-- The state in front of a call, and what was called before. -/
structure Desk where
  repo : Repo
  history : List Event

/-- A call made in order. -/
def DeskStep (d : Desk) (e : Event) (d' : Desk) : Prop :=
  CallStep canonicalDigest sha256 isAlnum d.repo e d'.repo ∧ InOrder d.history d.repo e ∧
    d'.history = d.history ++ [e]

/-- The journal of a transaction is what its standing says. -/
def Fits (s : Option Standing) (t : String) (j : Option TransactionJournal) : Prop :=
  match s with
  | none => j = none
  | some (.review m message) => ∃ j', j = some j' ∧ m.transactionId = t ∧ j'.state = .reviewed ∧
      j'.candidateOid = "" ∧ j'.manifestDigest = canonicalDigest m ∧
      j'.parentOid = m.parentOid ∧ j'.reason = reviewBound sha256 message
  | some (.candidate p) => ∃ j', j = some j' ∧ p.manifest.transactionId = t ∧
      j'.state ≠ .failed ∧ j'.state ≠ .reviewed ∧ j'.tombstoned = false ∧
      p.commit = some j'.candidateOid ∧ j'.manifestDigest = canonicalDigest p.manifest ∧
      j'.parentOid = p.manifest.parentOid
  | some .spoiled => ∃ j', j = some j' ∧ j'.state ≠ .reviewed

/-- Every publication was of inputs that had been reviewed before. -/
def Backed (history : List Event) : Prop :=
  ∀ before e after p j, history = before ++ e :: after → e.call = .publish p →
    e.result = .journal j →
    ∃ r m message failures j', r ∈ before ∧ r.call = .review m message failures ∧
      r.result = .journal j' ∧ m.transactionId = p.manifest.transactionId ∧
      canonicalDigest m = canonicalDigest p.manifest ∧ m.parentOid = p.manifest.parentOid ∧
      reviewBound sha256 message = reviewBound sha256 p.message

structure Sound (d : Desk) : Prop where
  fits : ∀ t, Fits canonicalDigest sha256 (latest (standing t) d.history) t (d.repo.journals t)
  tombstones : ∀ t j, d.repo.journals t = some j → j.tombstoned = true → j.state = .failed
  backed : Backed canonicalDigest sha256 d.history

end

/-! ## One call -/

section

variable {canonicalDigest : TransactionManifest → String} {sha256 : String → String}
  {isAlnum : Char → Bool}

theorem journals_of_other {repo : Repo} {call : Call} {writes : List Write} {result : Result}
    (h : call.run canonicalDigest sha256 isAlnum repo = (writes, result)) {t : String}
    (ht : call.transaction ≠ some t) : (repo.writeAll writes).journals t = repo.journals t := by
  cases call with
  | review m message failures =>
      have hne : t ≠ m.transactionId := fun he => ht (he ▸ rfl)
      obtain ⟨rfl, -⟩ | ⟨-, rfl, -⟩ := review_cases h
      · rfl
      · simp [hne]
  | publish p =>
      have hne : t ≠ p.manifest.transactionId := fun he => ht (he ▸ rfl)
      have hbuilt : ∀ writes result, Building canonicalDigest isAlnum p repo writes result →
          ∀ rest, (∀ repo : Repo, (repo.writeAll rest).journals t = repo.journals t) →
          (repo.writeAll (writes ++ rest)).journals t = repo.journals t := by
        intro writes result hbuilding rest hrest
        cases hbuilding <;> simp [hrest, hne]
      cases publishing h with
      | refused message => rfl
      | mutated j message _ _ => simp [hne]
      | built j _ _ _ _ _ hbuilding =>
          simpa using hbuilt _ _ hbuilding [] fun _ => rfl
      | unverified j published writes message _ _ _ hbuilding =>
          exact hbuilt _ _ hbuilding _ fun repo => by simp [hne]
  | request t' automatic diff =>
      have hne : t ≠ t' := fun he => ht (he ▸ rfl)
      obtain ⟨rfl, -⟩ | ⟨j, -, -, ⟨-, _, rfl, -⟩ | ⟨-, _, _, rfl, -⟩ | ⟨-, -, _, -, rfl, -⟩⟩ :=
        request_cases h
      · rfl
      · simp [hne]
      · simp [hne]
      · simp [hne]
  | recover t' =>
      have hne : t ≠ t' := fun he => ht (he ▸ rfl)
      obtain ⟨-, rfl, -⟩ | ⟨j, -, ⟨rfl, -⟩ | ⟨-, -, -, _, rfl, -⟩ | ⟨-, -, _, rfl, -⟩⟩ :=
        recover_cases h
      · rfl
      · rfl
      · simp [hne]
      · simp [hne]
  | collect t' age referenced deletable =>
      have hne : t ≠ t' := fun he => ht (he ▸ rfl)
      obtain ⟨rfl, -⟩ | ⟨j, _, -, -, -, rfl⟩ := collect_cases h
      · rfl
      · split <;> simp [hne]
  | release t' => cases h; rfl
  | move ref oid => cases h; rfl
  | checkout ref => cases h; rfl
  | stage digest => cases h; rfl

theorem standing_of_other {t : String} {e : Event} (ht : e.call.transaction ≠ some t) :
    standing t e = none := by
  unfold standing
  split <;> simp_all [Call.transaction]

theorem fits_alive {s : Option Standing} {t : String} {j : TransactionJournal} {p : PublishRequest}
    (h : Fits canonicalDigest sha256 s t (some j)) (hp : s = some (.candidate p)) :
    p.manifest.transactionId = t ∧ j.state ≠ .failed ∧ j.tombstoned = false ∧
      p.commit = some j.candidateOid ∧ j.manifestDigest = canonicalDigest p.manifest ∧
      j.parentOid = p.manifest.parentOid := by
  subst hp
  obtain ⟨j', hj, ht, hfailed, -, halive, hcommit, hdigest, hparent⟩ := h
  obtain rfl := Option.some.inj hj
  exact ⟨ht, hfailed, halive, hcommit, hdigest, hparent⟩

theorem fits_reviewed {s : Option Standing} {t : String} {j : TransactionJournal}
    (h : Fits canonicalDigest sha256 s t (some j)) (hj : j.state = .reviewed) :
    ∃ m message, s = some (.review m message) ∧ m.transactionId = t ∧ j.candidateOid = "" ∧
      j.manifestDigest = canonicalDigest m ∧ j.parentOid = m.parentOid ∧
      j.reason = reviewBound sha256 message := by
  match s with
  | none => cases h
  | some (.review m message) =>
      obtain ⟨j', hj', ht, -, hoid, hdigest, hparent, hreason⟩ := h
      obtain rfl := Option.some.inj hj'
      exact ⟨m, message, rfl, ht, hoid, hdigest, hparent, hreason⟩
  | some (.candidate p) =>
      obtain ⟨j', hj', -, -, hnot, -⟩ := h
      obtain rfl := Option.some.inj hj'
      exact absurd hj hnot
  | some .spoiled =>
      obtain ⟨j', hj', hnot⟩ := h
      obtain rfl := Option.some.inj hj'
      exact absurd hj hnot

theorem Fits.rewrite {s : Option Standing} {t : String} {j : TransactionJournal}
    (h : Fits canonicalDigest sha256 s t (some j)) (hoid : j.candidateOid ≠ "")
    {state : TransactionState} {reason : String} (hfailed : state ≠ .failed)
    (hreviewed : state ≠ .reviewed) :
    Fits canonicalDigest sha256 s t (some { j with state := state, reason := reason }) := by
  match s with
  | none => cases h
  | some (.review m message) =>
      obtain ⟨j', hj', -, -, hempty, -⟩ := h
      obtain rfl := Option.some.inj hj'
      exact absurd hempty hoid
  | some (.candidate p) =>
      obtain ⟨j', hj', ht, -, -, halive, hcommit, hdigest, hparent⟩ := h
      obtain rfl := Option.some.inj hj'
      exact ⟨_, rfl, ht, hfailed, hreviewed, halive, hcommit, hdigest, hparent⟩
  | some .spoiled => exact ⟨_, rfl, hreviewed⟩

theorem fits_call {repo : Repo} {call : Call} {writes : List Write} {result : Result} {t : String}
    {s : Option Standing} (hfits : Fits canonicalDigest sha256 s t (repo.journals t))
    (h : call.run canonicalDigest sha256 isAlnum repo = (writes, result))
    (ht : call.transaction = some t) :
    Fits canonicalDigest sha256 ((standing t ⟨call, writes, result⟩).or s) t
      ((repo.writeAll writes).journals t) := by
  cases call with
  | review m message failures =>
      obtain rfl := Option.some.inj ht
      obtain ⟨rfl, e, rfl⟩ | ⟨-, rfl, rfl⟩ := review_cases h
      · exact hfits
      · simp [standing, Fits, reviewJournal]
  | publish p =>
      obtain rfl := Option.some.inj ht
      cases publishing h with
      | refused message => simpa [standing] using hfits
      | mutated j message _ _ => simp [standing, Fits]
      | built j _ _ _ _ _ hbuilding =>
          cases hbuilding with
          | refused message => simpa [standing] using hfits
          | unbuilt checkedOut message => simp [standing, Fits, preparedJournal]
          | unsigned checkedOut message => simp [standing, Fits]
          | unreadable checkedOut oid message _ _ => simp [standing, Fits, preparedJournal]
          | drifted checkedOut oid message _ _ => simp [standing, Fits]
          | published checkedOut oid hcommit _ =>
              simp [standing, Fits, publishedJournal, preparedJournal, hcommit]
      | unverified j published _ message _ _ _ hbuilding =>
          cases hbuilding with
          | published checkedOut oid hcommit _ => simp [standing, Fits]
  | request t' automatic diff =>
      obtain rfl := Option.some.inj ht
      obtain ⟨rfl, e, rfl⟩ | ⟨j, hj, hoid, hwrites⟩ := request_cases h
      · simpa [standing] using hfits
      · rw [hj] at hfits
        obtain ⟨-, _, rfl, rfl⟩ | ⟨-, _, e, rfl, rfl⟩ | ⟨-, -, _, -, rfl, rfl⟩ := hwrites
        · simpa [standing] using hfits.rewrite hoid (by decide) (by decide)
        · simp [standing, Fits]
        · simpa [standing] using hfits.rewrite hoid (by decide) (by decide)
  | recover t' =>
      obtain rfl := Option.some.inj ht
      obtain ⟨-, rfl, e, rfl⟩ | ⟨j, hj, ⟨rfl, rfl, -⟩ | ⟨-, -, -, _, rfl, rfl⟩ |
        ⟨-, -, _, rfl, rfl⟩⟩ := recover_cases h
      · simpa [standing] using hfits
      · simpa [standing] using hfits
      · simp [standing, Fits]
      · simp [standing, Fits]
  | collect t' age referenced deletable =>
      obtain rfl := Option.some.inj ht
      obtain ⟨rfl, rfl⟩ | ⟨j, _, -, -, rfl, rfl⟩ := collect_cases h
      · simpa [standing] using hfits
      · split <;> simp [standing, Fits]
  | release t' => cases ht
  | move ref oid => cases ht
  | checkout ref => cases ht
  | stage digest => cases ht

theorem tombstone_call {d d' : Desk} {e : Event} (hsound : Sound canonicalDigest sha256 d)
    (hstep : DeskStep canonicalDigest sha256 isAlnum d e d') {t : String}
    (ht : e.call.transaction = some t) :
    (∀ j', d'.repo.journals t = some j' → j'.tombstoned = true → j'.state = .failed) ∧
      ∀ j, d.repo.journals t = some j → j.tombstoned = true →
        ∃ j', d'.repo.journals t = some j' ∧ j'.tombstoned = true := by
  obtain ⟨⟨hrun, hrepo⟩, horder, -⟩ := hstep
  obtain ⟨call, writes, result⟩ := e
  have hold := hsound.tombstones t
  rw [hrepo]
  have hsame : writes = [] → (∀ j', (d.repo.writeAll writes).journals t = some j' →
      j'.tombstoned = true → j'.state = .failed) ∧
      ∀ j, d.repo.journals t = some j → j.tombstoned = true →
        ∃ j', (d.repo.writeAll writes).journals t = some j' ∧ j'.tombstoned = true := by
    rintro rfl
    exact ⟨hold, fun j hj htomb => ⟨j, hj, htomb⟩⟩
  cases call with
  | review m message failures =>
      obtain rfl := Option.some.inj ht
      obtain ⟨hnil, -⟩ | ⟨halive, rfl, -⟩ := review_cases hrun
      · exact hsame hnil
      · refine ⟨by simp [reviewJournal], fun j hj htomb => ?_⟩
        rw [halive j hj] at htomb
        cases htomb
  | publish p =>
      obtain rfl := Option.some.inj ht
      have hlive : ∀ j, Reviewed canonicalDigest sha256 p j →
          d.repo.journals p.manifest.transactionId = some j →
          ∀ j', d.repo.journals p.manifest.transactionId = some j' →
            j'.tombstoned = true → False := by
        intro j hreviewed hj j' hj' htomb
        obtain rfl := Option.some.inj (hj.symm.trans hj')
        rw [hreviewed.alive] at htomb
        cases htomb
      cases publishing hrun with
      | refused _ => exact hsame rfl
      | mutated j _ hj hreviewed =>
          refine ⟨by simp [hreviewed.alive], fun j' hj' htomb => ?_⟩
          exact (hlive j hreviewed hj j' hj' htomb).elim
      | built j _ _ hj hreviewed _ hbuilding =>
          refine ⟨?_, fun j' hj' htomb => (hlive j hreviewed hj j' hj' htomb).elim⟩
          cases hbuilding with
          | refused _ => exact hold
          | _ => simp [preparedJournal, publishedJournal]
      | unverified j published _ _ hj hreviewed _ hbuilding =>
          refine ⟨?_, fun j' hj' htomb => (hlive j hreviewed hj j' hj' htomb).elim⟩
          cases hbuilding with
          | published checkedOut oid _ _ => simp
  | request t' automatic diff =>
      obtain rfl := Option.some.inj ht
      obtain ⟨hnil, -⟩ | ⟨j, hj, hoid, hwrites⟩ := request_cases hrun
      · exact hsame hnil
      · have hgate := horder t' automatic diff j rfl hj hoid
        clear horder
        have hlive : j.tombstoned = false →
            ∀ j', d.repo.journals t' = some j' → j'.tombstoned = true → False := by
          intro halive j' hj' htomb
          obtain rfl := Option.some.inj (hj.symm.trans hj')
          rw [halive] at htomb
          cases htomb
        obtain ⟨rfl, _, rfl, -⟩ | ⟨-, reason, e, rfl, -⟩ |
          ⟨rfl, htip, names, hdiff, rfl, -⟩ := hwrites
        · have halive : j.tombstoned = false := hgate
          exact ⟨by simp [halive], fun j' hj' htomb => (hlive halive j' hj' htomb).elim⟩
        · refine ⟨by simp, fun j' hj' htomb => ?_⟩
          obtain rfl := Option.some.inj (hj.symm.trans hj')
          exact ⟨{ j with state := .failed, reason := reason }, by simp, htomb⟩
        · obtain ⟨⟨p, hp⟩, -⟩ := hgate htip (by rw [hdiff]; rfl)
          have hfits := hsound.fits t'
          rw [hj] at hfits
          have halive := (fits_alive hfits hp).2.2.1
          exact ⟨by simp [halive], fun j' hj' htomb => (hlive halive j' hj' htomb).elim⟩
  | recover t' =>
      obtain rfl := Option.some.inj ht
      obtain ⟨-, hnil, -⟩ | ⟨j, hj, ⟨hnil, -⟩ | ⟨halive, -, -, _, rfl, -⟩ | ⟨halive, -, _, rfl, -⟩⟩ :=
        recover_cases hrun
      · exact hsame hnil
      · exact hsame hnil
      all_goals
        refine ⟨by simp [halive], fun j' hj' htomb => ?_⟩
        obtain rfl := Option.some.inj (hj.symm.trans hj')
        rw [halive] at htomb
        cases htomb
  | collect t' age referenced deletable =>
      obtain rfl := Option.some.inj ht
      obtain ⟨hnil, -⟩ | ⟨j, _, -, -, -, rfl⟩ := collect_cases hrun
      · exact hsame hnil
      · split <;> simp
  | release t' => cases ht
  | move ref oid => cases ht
  | checkout ref => cases ht
  | stage digest => cases ht

theorem standing_review {t : String} {e : Event} {m : TransactionManifest} {message : String}
    (h : standing t e = some (.review m message)) :
    ∃ failures j, e.call = .review m message failures ∧ e.result = .journal j := by
  unfold standing at h
  split at h
  · next m' message' failures j hcall hresult =>
      split at h
      · cases h
        exact ⟨failures, j, hcall, hresult⟩
      · cases h
  all_goals first
    | (split at h <;> cases h)
    | cases h

theorem standing_candidate {t : String} {e : Event} {p : PublishRequest}
    (h : standing t e = some (.candidate p)) :
    ∃ j, e.call = .publish p ∧ e.result = .journal j := by
  unfold standing at h
  split at h
  · split at h <;> cases h
  · next p' j hcall hresult =>
      split at h
      · cases h
        exact ⟨j, hcall, hresult⟩
      · cases h
  all_goals first
    | (split at h <;> cases h)
    | cases h

theorem standing_of_failed {repo : Repo} {e : Event}
    (h : e.call.run canonicalDigest sha256 isAlnum repo = (e.writes, e.result)) {t : String}
    {j : TransactionJournal} (hw : .journal t j ∈ e.writes) (hj : j.state = .failed) :
    standing t e ≠ none := by
  obtain ⟨call, writes, result⟩ := e
  cases call with
  | review m message failures =>
      obtain ⟨rfl, -⟩ | ⟨-, rfl, -⟩ := review_cases h
      · cases hw
      · simp [reviewJournal] at hw
        obtain ⟨rfl, rfl⟩ := hw
        cases hj
  | publish p =>
      cases publishing h with
      | refused _ => cases hw
      | mutated j' _ _ _ =>
          simp at hw
          obtain ⟨rfl, rfl⟩ := hw
          cases hj
      | built j' _ _ _ _ _ hbuilding =>
          cases hbuilding with
          | refused _ => cases hw
          | published checkedOut oid _ _ =>
              simp [publishedJournal, preparedJournal] at hw
              obtain ⟨rfl, rfl⟩ | ⟨rfl, rfl⟩ := hw <;> cases hj
          | _ =>
              have ht : p.manifest.transactionId = t := by
                simp at hw
                grind
              simp [standing, ht]
      | unverified j' published _ _ _ _ _ hbuilding =>
          cases hbuilding with
          | published checkedOut oid _ _ =>
              have ht : p.manifest.transactionId = t := by
                simp at hw
                grind
              simp [standing, ht]
  | request t' automatic diff =>
      obtain ⟨rfl, -⟩ | ⟨j', -, -, ⟨-, _, rfl, -⟩ | ⟨-, _, _, rfl, rfl⟩ |
        ⟨-, -, _, -, rfl, -⟩⟩ := request_cases h
      · cases hw
      · simp at hw
        obtain ⟨rfl, rfl⟩ := hw
        cases hj
      · simp at hw
        simp [standing, hw.1]
      · simp at hw
        obtain ⟨rfl, rfl⟩ := hw
        cases hj
  | recover t' =>
      obtain ⟨-, rfl, -⟩ | ⟨j', -, ⟨rfl, -⟩ | ⟨-, -, -, _, rfl, rfl⟩ | ⟨-, -, _, rfl, -⟩⟩ :=
        recover_cases h
      · cases hw
      · cases hw
      · simp at hw
        simp [standing, hw.1]
      · simp at hw
        obtain ⟨rfl, rfl⟩ := hw
        cases hj
  | collect t' age referenced deletable =>
      obtain ⟨rfl, -⟩ | ⟨j', _, -, -, rfl, rfl⟩ := collect_cases h
      · cases hw
      · have ht : t = t' := by
          split at hw <;> simp at hw <;> exact hw.1
        simp [standing, ht]
  | release t' => cases h; simp at hw
  | move ref oid => cases h; simp at hw
  | checkout ref => cases h; simp at hw
  | stage digest => cases h; simp at hw

/-! ## Runs of calls made in order -/

theorem backed_snoc {d d' : Desk} {e : Event} (hsound : Sound canonicalDigest sha256 d)
    (hstep : DeskStep canonicalDigest sha256 isAlnum d e d') :
    Backed canonicalDigest sha256 d'.history := by
  obtain ⟨⟨hrun, -⟩, -, hhistory⟩ := hstep
  rw [hhistory]
  intro before e' after p j hsplit hcall hresult
  obtain ⟨rfl, rfl, rfl⟩ | ⟨after', rfl, hbefore⟩ := snoc_split hsplit
  · -- the publication read a journal that only a review can have left
    obtain ⟨call, writes, result⟩ := e'
    obtain rfl : call = .publish p := hcall
    obtain rfl : result = .journal j := hresult
    cases publishing hrun with
    | built j' _ _ hj' hreviewed _ hbuilding =>
        have hfits := hsound.fits p.manifest.transactionId
        rw [hj'] at hfits
        obtain ⟨m, message, hlatest, ht, -, hdigest, hparent, hreason⟩ :=
          fits_reviewed hfits hreviewed.state
        obtain ⟨b, r, a, hsplit', hstanding, -⟩ := latest_split hlatest
        obtain ⟨failures, jr, hcall', hresult'⟩ := standing_review hstanding
        refine ⟨r, m, message, failures, jr, ?_, hcall', hresult', ht, ?_, ?_, ?_⟩
        · rw [hsplit']
          exact List.mem_append_right _ List.mem_cons_self
        · exact hdigest.symm.trans hreviewed.digest
        · exact hparent.symm.trans hreviewed.parent
        · exact hreason.symm.trans hreviewed.reason
  · exact hsound.backed before e' after' p j hbefore hcall hresult

theorem sound_step {d d' : Desk} {e : Event} (hsound : Sound canonicalDigest sha256 d)
    (hstep : DeskStep canonicalDigest sha256 isAlnum d e d') :
    Sound canonicalDigest sha256 d' := by
  have hbacked := backed_snoc hsound hstep
  have htomb : ∀ t, e.call.transaction = some t → ∀ j', d'.repo.journals t = some j' →
      j'.tombstoned = true → j'.state = .failed :=
    fun _ ht => (tombstone_call hsound hstep ht).1
  obtain ⟨⟨hrun, hrepo⟩, -, hhistory⟩ := hstep
  refine ⟨fun t => ?_, fun t => ?_, hbacked⟩
  · rw [hhistory, latest_snoc, hrepo]
    by_cases ht : e.call.transaction = some t
    · exact fits_call (hsound.fits t) hrun ht
    · rw [standing_of_other ht, journals_of_other hrun ht, Option.none_or]
      exact hsound.fits t
  · by_cases ht : e.call.transaction = some t
    · exact htomb t ht
    · rw [hrepo, journals_of_other hrun ht]
      exact hsound.tombstones t

theorem tombstone_step {d d' : Desk} {e : Event} (hsound : Sound canonicalDigest sha256 d)
    (hstep : DeskStep canonicalDigest sha256 isAlnum d e d') {t : String}
    (h : ∃ j, d.repo.journals t = some j ∧ j.tombstoned = true) :
    ∃ j, d'.repo.journals t = some j ∧ j.tombstoned = true := by
  obtain ⟨j, hj, htomb⟩ := h
  by_cases ht : e.call.transaction = some t
  · exact (tombstone_call hsound hstep ht).2 j hj htomb
  · refine ⟨j, ?_, htomb⟩
    rw [hstep.1.2, journals_of_other hstep.1.1 ht]
    exact hj

variable {start : Repo} {events : List Event} {d : Desk}

theorem sound_run (hstart : ∀ t, start.journals t = none)
    (hrun : Run (DeskStep canonicalDigest sha256 isAlnum) ⟨start, []⟩ events d) :
    Sound canonicalDigest sha256 d := by
  have h0 : Sound canonicalDigest sha256 ⟨start, []⟩ := by
    refine ⟨hstart, fun t j hj => ?_, fun before e after p j hsplit => ?_⟩
    · rw [hstart t] at hj
      cases hj
    · simp at hsplit
  exact hrun.invariant h0 fun _ _ _ => sound_step

theorem history_run (hrun : Run (DeskStep canonicalDigest sha256 isAlnum) ⟨start, []⟩ events d) :
    d.history = events := by
  induction hrun with
  | nil => rfl
  | snoc _ hstep ih => rw [hstep.2.2, ih]

theorem reviewBound_inj {a b : String} (h : reviewBound sha256 a = reviewBound sha256 b) :
    sha256 a = sha256 b := by
  unfold reviewBound messageDigest at h
  simpa using h

/-- The messages a call brings. -/
def Call.messages : Call → List String
  | .review _ message _ => [message]
  | .publish p => [p.message]
  | _ => []

/-- What a handoff of `t`, issued after the calls `before`, has behind it. -/
structure LiveCandidate (canonicalDigest : TransactionManifest → String) (before : List Event)
    (repo : Repo) (t : String) (h : NativeIntegrationHandoff) : Prop where
  journal : ∃ j, repo.journals t = some j ∧ j.tombstoned = false ∧ j.state ≠ .failed ∧
    h.candidateRef = j.candidateRef ∧ h.candidateOid = j.candidateOid ∧
    h.reviewedParentOid = j.parentOid ∧ repo.refs j.candidateRef = some j.candidateOid
  published : ∃ earlier pub later p jp, before = earlier ++ pub :: later ∧
    pub.call = .publish p ∧ pub.result = .journal jp ∧ p.manifest.transactionId = t ∧
    p.commit = some h.candidateOid ∧ p.manifest.parentOid = h.reviewedParentOid ∧
    (∀ e ∈ later, ∀ j, .journal t j ∈ e.writes → j.state ≠ .failed) ∧
    ∃ r ∈ earlier, ∃ m message failures jr, r.call = .review m message failures ∧
      r.result = .journal jr ∧ m.transactionId = t ∧
      canonicalDigest m = canonicalDigest p.manifest ∧ m.parentOid = p.manifest.parentOid ∧
      message = p.message

theorem ran_of_mem (hrun : Run (DeskStep canonicalDigest sha256 isAlnum) ⟨start, []⟩ events d)
    {e : Event} (he : e ∈ events) :
    ∃ repo, e.call.run canonicalDigest sha256 isAlnum repo = (e.writes, e.result) := by
  obtain ⟨before, after, rfl⟩ := List.append_of_mem he
  obtain ⟨d₁, d₂, -, hstep, -⟩ := hrun.split
  exact ⟨d₁.repo, hstep.1.1⟩

theorem handoffs_of_live_candidates (canonicalDigest : TransactionManifest → String)
    (sha256 : String → String) (isAlnum : Char → Bool) (start : Repo) (events : List Event)
    (d : Desk) (hstart : ∀ t, start.journals t = none)
    (hrun : Run (DeskStep canonicalDigest sha256 isAlnum) ⟨start, []⟩ events d)
    (hsha : ∀ a ∈ events.flatMap fun e => e.call.messages,
      ∀ b ∈ events.flatMap fun e => e.call.messages, sha256 a = sha256 b → a = b) :
    (∀ before e after t automatic diff j h, events = before ++ e :: after →
      e.call = .request t automatic diff → e.result = .integration j (some h) →
      ∃ d₀, Run (DeskStep canonicalDigest sha256 isAlnum) ⟨start, []⟩ before d₀ ∧
        LiveCandidate canonicalDigest before d₀.repo t h) ∧
    ∀ before after, events = before ++ after →
      ∃ d₀, Run (DeskStep canonicalDigest sha256 isAlnum) ⟨start, []⟩ before d₀ ∧
        ∀ t j₀, d₀.repo.journals t = some j₀ → j₀.tombstoned = true →
          ∃ j, d.repo.journals t = some j ∧ j.tombstoned = true ∧ j.state = .failed := by
  constructor
  · rintro before e after t automatic diff j h rfl hcall hresult
    obtain ⟨d₀, d₁, hbefore, hstep, -⟩ := hrun.split
    have hsound := sound_run hstart hbefore
    have hhistory := history_run hbefore
    refine ⟨d₀, hbefore, ?_⟩
    obtain ⟨call, writes, result⟩ := e
    obtain rfl : call = .request t automatic diff := hcall
    obtain rfl : result = .integration j (some h) := hresult
    obtain ⟨⟨hran, -⟩, horder, -⟩ := hstep
    obtain ⟨-, e, he⟩ | ⟨j₀, hj₀, hoid, ⟨-, _, -, he⟩ | ⟨-, _, e, -, he⟩ |
      ⟨rfl, htip, names, hdiff, -, he⟩⟩ := request_cases hran
    · cases he
    · cases he
    · cases he
    · cases he
      obtain ⟨⟨p, hp⟩, href⟩ := horder t false diff j₀ rfl hj₀ hoid htip (by rw [hdiff]; rfl)
      have hfits := hsound.fits t
      rw [hj₀] at hfits
      obtain ⟨ht, hfailed, halive, hcommit, hdigest, hparent⟩ := fits_alive hfits hp
      refine ⟨⟨j₀, hj₀, halive, hfailed, rfl, rfl, rfl, href⟩, ?_⟩
      rw [hhistory] at hp
      obtain ⟨earlier, pub, later, hsplit, hstanding, hlater⟩ := latest_split hp
      obtain ⟨jp, hpub, hpubResult⟩ := standing_candidate hstanding
      obtain ⟨r, m, message, failures, jr, hr, hrcall, hrresult, hm, hmdigest, hmparent,
        hmessage⟩ := hsound.backed earlier pub later p jp (hhistory.trans hsplit) hpub hpubResult
      refine ⟨earlier, pub, later, p, jp, hsplit, hpub, hpubResult, ht, hcommit, hparent.symm,
        fun e' he' j' hw hj' => ?_, r, hr, m, message, failures, jr, hrcall, hrresult,
        hm.trans ht, hmdigest, hmparent, ?_⟩
      · have hmem : e' ∈ before := by
          rw [hsplit]
          exact List.mem_append_right _ (List.mem_cons_of_mem _ he')
        obtain ⟨repo, hran'⟩ := ran_of_mem hbefore hmem
        exact standing_of_failed hran' hw hj' (hlater e' he')
      · refine hsha message ?_ p.message ?_ (reviewBound_inj hmessage)
        · refine List.mem_flatMap.mpr ⟨r, ?_, ?_⟩
          · rw [hsplit]
            simp [hr]
          · rw [hrcall]
            exact List.mem_cons_self
        · refine List.mem_flatMap.mpr ⟨pub, ?_, ?_⟩
          · rw [hsplit]
            simp
          · rw [hpub]
            exact List.mem_cons_self
  · rintro before after rfl
    obtain ⟨d₀, hbefore, hafter⟩ := hrun.of_append
    refine ⟨d₀, hbefore, fun t j₀ hj₀ htomb => ?_⟩
    have hkept : Sound canonicalDigest sha256 d ∧
        ∃ j, d.repo.journals t = some j ∧ j.tombstoned = true := by
      refine @Run.invariant _ _ _ d₀ d after (fun d => Sound canonicalDigest sha256 d ∧
        ∃ j, d.repo.journals t = some j ∧ j.tombstoned = true)
        ⟨sound_run hstart hbefore, j₀, hj₀, htomb⟩ ?_ hafter
      exact fun s x s' hs hstep => ⟨sound_step hs.1 hstep, tombstone_step hs.1 hstep hs.2⟩
    obtain ⟨hsound, j, hj, hjtomb⟩ := hkept
    exact ⟨j, hj, hjtomb, hsound.tombstones t j hj hjtomb⟩

end

/-! ## A handoff, and two that should not have been -/

def sampleManifest : TransactionManifest where
  transactionId := "t1"
  runId := "r1"
  parentOid := "5b1f4c0e9d2a7f3386c1e0b4a9d8f7765c3b2a10"
  ownership := ⟨["notes"], [("notes", emptyDigest)]⟩

/-- The digests of the sample's manifest and message. -/
def sampleCanonicalDigest : TransactionManifest → String := fun _ =>
  "sha256:f647328e86354d33de1ed77ec613ce03bf535ce3137023b379661b430c8965cc"

def sampleSha256 : String → String := fun _ =>
  "10f7591e7a5bd53081805ad339637152543609947b2fd9dafa99616c6603cd6f"

def sampleRef : String := "refs/trw/commit-candidates/r1/t1"

def sampleStart : Repo where
  journals := fun _ => none
  claims := fun _ => none
  refs := fun ref => if ref = "refs/heads/main" then some sampleManifest.parentOid else none
  head := some "refs/heads/main"
  index := "absent"

def samplePublish (requireSignature : Bool) : PublishRequest where
  manifest := sampleManifest
  message := "add notes"
  requireSignature := requireSignature
  failures := []
  hooks := .passed
  treeBuilds := true
  commit := some "c0ffee5e1d0b7a4492f3861e5d4c3b2a19087f6e"
  refWritable := true
  after := .same
  verifies := false

/-- The call as an event in the state it finds. -/
def sampleEvent (repo : Repo) (call : Call) : Event :=
  ⟨call, (call.run sampleCanonicalDigest sampleSha256 Char.isAlphanum repo).1,
    (call.run sampleCanonicalDigest sampleSha256 Char.isAlphanum repo).2⟩

def sampleAfter (repo : Repo) (call : Call) : Repo := repo.writeAll (sampleEvent repo call).writes

def sampleReview : Call := .review sampleManifest "add notes" []

def sampleReviewed : Repo := sampleAfter sampleStart sampleReview

def samplePublished (requireSignature : Bool) : Repo :=
  sampleAfter sampleReviewed (.publish (samplePublish requireSignature))

def sampleRequest : Call := .request "t1" false (some "notes\n".toList)

def sampleJournal (state : TransactionState) (reason : String) (tombstoned : Bool) :
    TransactionJournal where
  state := state
  manifestDigest := sampleCanonicalDigest sampleManifest
  parentOid := sampleManifest.parentOid
  candidateOid := "c0ffee5e1d0b7a4492f3861e5d4c3b2a19087f6e"
  candidateRef := sampleRef
  checkedOutRef := "refs/heads/main"
  sharedIndexDigest := "absent"
  reason := reason
  tombstoned := tombstoned

def sampleHandoff : NativeIntegrationHandoff where
  transactionId := "t1"
  candidateRef := sampleRef
  candidateOid := "c0ffee5e1d0b7a4492f3861e5d4c3b2a19087f6e"
  reviewedParentOid := sampleManifest.parentOid
  ownedPaths := ["notes"]

theorem sampleStep (repo : Repo) (call : Call) :
    CallStep sampleCanonicalDigest sampleSha256 Char.isAlphanum repo (sampleEvent repo call)
      (sampleAfter repo call) := ⟨rfl, rfl⟩

/-- A review and a publication. -/
def sampleBefore : List Event :=
  [sampleEvent sampleStart sampleReview,
    sampleEvent sampleReviewed (.publish (samplePublish false))]

theorem handoffs_of_live_candidates_sample :
    ∃ d₀, LiveCandidate sampleCanonicalDigest sampleBefore d₀ "t1" sampleHandoff := by
  have hjournal : (samplePublished false).journals "t1" =
      some (sampleJournal .candidatePublished "" false) := by rfl
  have hrun : Run (DeskStep sampleCanonicalDigest sampleSha256 Char.isAlphanum)
      ⟨sampleStart, []⟩ (sampleBefore ++ [sampleEvent (samplePublished false) sampleRequest])
      ⟨sampleAfter (samplePublished false) sampleRequest,
        sampleBefore ++ [sampleEvent (samplePublished false) sampleRequest]⟩ := by
    have hreview : DeskStep sampleCanonicalDigest sampleSha256 Char.isAlphanum
        ⟨sampleStart, []⟩ (sampleEvent sampleStart sampleReview)
        ⟨sampleReviewed, [sampleEvent sampleStart sampleReview]⟩ := by
      refine ⟨sampleStep sampleStart sampleReview, fun t automatic diff j hcall => ?_, rfl⟩
      cases hcall
    have hpublish : DeskStep sampleCanonicalDigest sampleSha256 Char.isAlphanum
        ⟨sampleReviewed, [sampleEvent sampleStart sampleReview]⟩
        (sampleEvent sampleReviewed (.publish (samplePublish false)))
        ⟨samplePublished false, sampleBefore⟩ := by
      refine ⟨sampleStep sampleReviewed (.publish (samplePublish false)),
        fun t automatic diff j hcall => ?_, rfl⟩
      cases hcall
    refine ((Run.nil.snoc hreview).snoc hpublish).snoc
      ⟨sampleStep (samplePublished false) sampleRequest, ?_, rfl⟩
    intro t automatic diff j hcall hj _
    cases hcall
    obtain rfl := Option.some.inj (hjournal.symm.trans hj)
    exact fun _ _ => ⟨⟨samplePublish false, by rfl⟩, by rfl⟩
  have hmessages : ∀ a ∈ (sampleBefore ++
        [sampleEvent (samplePublished false) sampleRequest]).flatMap fun e => e.call.messages,
      ∀ b ∈ (sampleBefore ++
        [sampleEvent (samplePublished false) sampleRequest]).flatMap fun e => e.call.messages,
      sampleSha256 a = sampleSha256 b → a = b := by
    intro a ha b hb _
    simp [sampleBefore, sampleEvent, sampleReview, sampleRequest, samplePublish, Call.messages]
      at ha hb
    rw [ha, hb]
  have hlive := (handoffs_of_live_candidates sampleCanonicalDigest sampleSha256 Char.isAlphanum
    sampleStart _ _ (fun _ => rfl) hrun hmessages).1 sampleBefore
      (sampleEvent (samplePublished false) sampleRequest) [] "t1" false (some "notes\n".toList)
      (sampleJournal .handoffReady "" false) sampleHandoff rfl rfl (by rfl)
  obtain ⟨d₀, -, hlive⟩ := hlive
  exact ⟨d₀.repo, hlive⟩

/-- A candidate whose signature did not verify is handed off, and so is one that was collected,
which leaves the tombstoned transaction `handoff_ready`. -/
theorem failed_candidates_handed_off :
    Run (CallStep sampleCanonicalDigest sampleSha256 Char.isAlphanum) sampleStart
        [sampleEvent sampleStart sampleReview,
          sampleEvent sampleReviewed (.publish (samplePublish true)),
          sampleEvent (samplePublished true) sampleRequest]
        (sampleAfter (samplePublished true) sampleRequest) ∧
      (samplePublished true).journals "t1" =
        some (sampleJournal .failed "signature_verification_failed" false) ∧
      (sampleEvent (samplePublished true) sampleRequest).result =
        .integration (sampleJournal .handoffReady "signature_verification_failed" false)
          (some sampleHandoff) ∧
      (sampleAfter (samplePublished false) (.collect "t1" 31 false true)).journals "t1" =
        some (sampleJournal .failed "retention_collected" true) ∧
      (sampleAfter (sampleAfter (samplePublished false) (.collect "t1" 31 false true))
        sampleRequest).journals "t1" =
        some (sampleJournal .handoffReady "retention_collected" true) := by
  refine ⟨?_, by rfl, by rfl, by rfl, by rfl⟩
  exact ((Run.nil.snoc (sampleStep sampleStart sampleReview)).snoc
    (sampleStep sampleReviewed (.publish (samplePublish true)))).snoc
    (sampleStep (samplePublished true) sampleRequest)

end TrwMcp.GitTxn
