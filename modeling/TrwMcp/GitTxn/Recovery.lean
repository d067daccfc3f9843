import TrwMcp.GitTxn.Handoffs

/-!
# Journals that agree with the refs

`update-ref` creates the candidate ref before the journal records it. The invariant is that a
candidate ref that exists is the one its transaction's journal names; the condition leaves out the
steps that break it.
-/

namespace TrwMcp.GitTxn

open Lib

/-- A call, and after how many writes its process is killed. -/
structure Deed where
  call : Call
  stop : Option Nat
deriving DecidableEq

section

variable (canonicalDigest : TransactionManifest → String) (sha256 : String → String)
  (isAlnum : Char → Bool)

/-- The writes a call makes before it ends or is killed. -/
def Deed.writes (deed : Deed) (repo : Repo) : List Write :=
  let writes := (deed.call.run canonicalDigest sha256 isAlnum repo).1
  match deed.stop with
  | none => writes
  | some n => writes.take n

/-- The publication comes as far as `update-ref`, which creates the ref. -/
def createsRef (p : PublishRequest) (repo : Repo) : Prop :=
  (∃ j, repo.journals p.manifest.transactionId = some j ∧
      currentReview canonicalDigest sha256 p j = .ok ()) ∧
    p.hooks = .passed ∧ RefCreated isAlnum p repo

/-- The process is not killed, and no snapshot fails, between the creation of the ref and the
journal that records it; a transaction whose ref exists is not reviewed again; the deletion of an
existing ref succeeds; and others leave the candidate refs alone. -/
def Unbroken (repo : Repo) (deed : Deed) : Prop :=
  match deed.call with
  | .publish p => createsRef canonicalDigest sha256 isAlnum p repo →
      deed.stop ≠ some 0 → deed.stop ≠ some 1 → deed.stop ≠ some 2 ∧ p.after = .same
  | .review m _ failures => failures = [] → deed.stop ≠ some 0 → deed.stop ≠ some 1 →
      (repo.journals m.transactionId).any (·.tombstoned) = false →
      ∀ run, repo.refs (candidateRef isAlnum run m.transactionId) = none
  | .collect t age referenced deletable => ∀ j, repo.journals t = some j →
      expired j age referenced = true → (repo.refs j.candidateRef).isSome → deletable = true
  | .move ref _ => ∀ run t, ref ≠ candidateRef isAlnum run t
  | _ => True

def DeedStep (repo : Repo) (deed : Deed) (repo' : Repo) : Prop :=
  Unbroken canonicalDigest sha256 isAlnum repo deed ∧
    repo' = repo.writeAll (deed.writes canonicalDigest sha256 isAlnum repo)

/-- A candidate ref that exists is the one its transaction's journal names. -/
structure Agreed (repo : Repo) : Prop where
  refs : ∀ run t oid, repo.refs (candidateRef isAlnum run t) = some oid →
    ∃ j, repo.journals t = some j ∧ j.tombstoned = false ∧
      j.candidateRef = candidateRef isAlnum run t ∧ j.candidateOid = oid
  names : ∀ t j, repo.journals t = some j →
    j.candidateRef = "" ∨ ∃ run, j.candidateRef = candidateRef isAlnum run t
  fresh : ∀ t j, repo.journals t = some j → j.state = .reviewed ∨ j.state = .recovered →
    j.candidateRef = "" ∧ j.tombstoned = false

end

/-! ## Candidate refs -/

section

variable {isAlnum : Char → Bool}

theorem append_sep_inj {α : Type} {a : α} {xs ys us vs : List α} (hxs : a ∉ xs) (hys : a ∉ ys)
    (h : xs ++ a :: us = ys ++ a :: vs) : us = vs := by
  induction xs generalizing ys with
  | nil =>
      cases ys with
      | nil => exact (List.cons.inj h).2
      | cons y ys => exact absurd ((List.cons.inj h).1 ▸ List.mem_cons_self) hys
  | cons x xs ih =>
      cases ys with
      | nil => exact absurd ((List.cons.inj h).1 ▸ List.mem_cons_self) hxs
      | cons y ys =>
          exact ih (fun hx => hxs (List.mem_cons_of_mem _ hx))
            (fun hy => hys (List.mem_cons_of_mem _ hy)) (List.cons.inj h).2

theorem candidateRef_ne_empty (run t : String) : candidateRef isAlnum run t ≠ "" := by
  intro h
  have hlist := congrArg String.toList h
  unfold candidateRef candidateRefNamespace at hlist
  simp at hlist

theorem candidateRef_transaction (hslash : isAlnum '/' = false) {run run' t t' : String}
    (h : candidateRef isAlnum run t = candidateRef isAlnum run' t') : t = t' := by
  have hsafe : ∀ run : String, '/' ∉ run.toList.map fun c =>
      if isAlnum c || "-_.".toList.contains c then c else '-' := by
    intro run hmem
    obtain ⟨c, -, hc⟩ := List.mem_map.mp hmem
    split at hc
    · next hkeep =>
        subst hc
        rw [hslash, Bool.false_or] at hkeep
        exact absurd hkeep (by decide)
    · exact absurd hc (by decide)
  have hlist := congrArg String.toList h
  unfold candidateRef at hlist
  simp only [String.toList_append, String.toList_ofList, List.append_assoc] at hlist
  have htail := List.append_cancel_left (List.append_cancel_left hlist)
  exact String.toList_inj.mp (append_sep_inj (hsafe run) (hsafe run') htail)

end

/-! ## Writes that keep the agreement -/

section

variable {canonicalDigest : TransactionManifest → String} {sha256 : String → String}
  {isAlnum : Char → Bool} {repo repo' : Repo} {t : String} {j j' : TransactionJournal}

theorem Agreed.same (h : Agreed isAlnum repo) (hjournals : repo'.journals = repo.journals)
    (hrefs : ∀ run t, repo'.refs (candidateRef isAlnum run t) =
      repo.refs (candidateRef isAlnum run t)) : Agreed isAlnum repo' := by
  refine ⟨fun run t oid href => ?_, ?_, ?_⟩
  · rw [hjournals]
    exact h.refs run t oid ((hrefs run t).symm.trans href)
  · rw [hjournals]
    exact h.names
  · rw [hjournals]
    exact h.fresh

theorem Agreed.absent (h : Agreed isAlnum repo) (hj : repo.journals t = some j)
    (hname : j.candidateRef = "" ∨ j.tombstoned = true) (run : String) :
    repo.refs (candidateRef isAlnum run t) = none := by
  cases href : repo.refs (candidateRef isAlnum run t) with
  | none => rfl
  | some oid =>
      obtain ⟨j', hj', halive, hname', -⟩ := h.refs run t oid href
      obtain rfl := Option.some.inj (hj.symm.trans hj')
      rcases hname with hempty | htomb
      · exact absurd (hname'.symm.trans hempty) (candidateRef_ne_empty run t)
      · rw [halive] at htomb
        cases htomb

theorem Agreed.journal (h : Agreed isAlnum repo)
    (hrefs : ∀ run oid, repo.refs (candidateRef isAlnum run t) = some oid →
      j'.tombstoned = false ∧ j'.candidateRef = candidateRef isAlnum run t ∧ j'.candidateOid = oid)
    (hnames : j'.candidateRef = "" ∨ ∃ run, j'.candidateRef = candidateRef isAlnum run t)
    (hfresh : j'.state = .reviewed ∨ j'.state = .recovered →
      j'.candidateRef = "" ∧ j'.tombstoned = false) :
    Agreed isAlnum (repo.write (.journal t j')) := by
  refine ⟨fun run u oid href => ?_, fun u ju hu => ?_, fun u ju hu => ?_⟩
  · by_cases hut : u = t
    · subst hut
      exact ⟨j', repo.journals_write_self u j', hrefs run oid href⟩
    · obtain ⟨ju, hu, hrest⟩ := h.refs run u oid href
      exact ⟨ju, (repo.journals_write_ne hut j').trans hu, hrest⟩
  · by_cases hut : u = t
    · subst hut
      obtain rfl := Option.some.inj ((repo.journals_write_self u j').symm.trans hu)
      exact hnames
    · exact h.names u ju ((repo.journals_write_ne hut j').symm.trans hu)
  · by_cases hut : u = t
    · subst hut
      obtain rfl := Option.some.inj ((repo.journals_write_self u j').symm.trans hu)
      exact hfresh
    · exact h.fresh u ju ((repo.journals_write_ne hut j').symm.trans hu)

theorem Agreed.journal_absent (h : Agreed isAlnum repo)
    (habsent : ∀ run, repo.refs (candidateRef isAlnum run t) = none)
    (hname : j'.candidateRef = "" ∨ ∃ run, j'.candidateRef = candidateRef isAlnum run t)
    (hfresh : j'.state = .reviewed ∨ j'.state = .recovered →
      j'.candidateRef = "" ∧ j'.tombstoned = false) :
    Agreed isAlnum (repo.write (.journal t j')) := by
  refine h.journal (fun run oid href => ?_) hname hfresh
  rw [habsent run] at href
  cases href

theorem Agreed.rewrite (h : Agreed isAlnum repo) (hj : repo.journals t = some j)
    (href : j'.candidateRef = j.candidateRef) (hoid : j'.candidateOid = j.candidateOid)
    (htomb : j'.tombstoned = j.tombstoned)
    (hfresh : j'.state = .reviewed ∨ j'.state = .recovered →
      j'.candidateRef = "" ∧ j'.tombstoned = false) :
    Agreed isAlnum (repo.write (.journal t j')) := by
  refine h.journal (fun run oid hrun => ?_) ?_ hfresh
  · obtain ⟨ju, hu, halive, hname, hvalue⟩ := h.refs run t oid hrun
    obtain rfl := Option.some.inj (hj.symm.trans hu)
    exact ⟨htomb.trans halive, href.trans hname, hoid.trans hvalue⟩
  · rw [href]
    exact h.names t j hj

theorem Agreed.publish (hslash : isAlnum '/' = false) (h : Agreed isAlnum repo) {run oid : String}
    (habsent : ∀ run, repo.refs (candidateRef isAlnum run t) = none)
    (href : j'.candidateRef = candidateRef isAlnum run t) (hoid : j'.candidateOid = oid)
    (halive : j'.tombstoned = false) (hstate : j'.state ≠ .reviewed ∧ j'.state ≠ .recovered) :
    Agreed isAlnum ((repo.write (.ref (candidateRef isAlnum run t) (some oid))).write
      (.journal t j')) := by
  refine ⟨fun run' u oid' hu => ?_, fun u ju hu => ?_, fun u ju hu hfresh => ?_⟩
  · by_cases hname : candidateRef isAlnum run' u = candidateRef isAlnum run t
    · obtain rfl := candidateRef_transaction hslash hname
      rw [hname] at hu
      obtain rfl := Option.some.inj ((repo.refs_write_self _ _).symm.trans hu)
      exact ⟨j', Repo.journals_write_self _ u j', halive, href.trans hname.symm, hoid⟩
    · have hold : repo.refs (candidateRef isAlnum run' u) = some oid' :=
        (repo.refs_write_ne hname _).symm.trans hu
      obtain ⟨ju, hju, hrest⟩ := h.refs run' u oid' hold
      have hut : u ≠ t := by
        rintro rfl
        rw [habsent run'] at hold
        cases hold
      exact ⟨ju, (Repo.journals_write_ne _ hut j').trans hju, hrest⟩
  · by_cases hut : u = t
    · subst hut
      obtain rfl := Option.some.inj ((Repo.journals_write_self _ u j').symm.trans hu)
      exact .inr ⟨run, href⟩
    · exact h.names u ju ((Repo.journals_write_ne _ hut j').symm.trans hu)
  · by_cases hut : u = t
    · subst hut
      obtain rfl := Option.some.inj ((Repo.journals_write_self _ u j').symm.trans hu)
      exact (hfresh.elim hstate.1 hstate.2).elim
    · exact h.fresh u ju ((Repo.journals_write_ne _ hut j').symm.trans hu) hfresh

theorem Agreed.deleteRef (h : Agreed isAlnum repo) (ref : String) :
    Agreed isAlnum (repo.write (.ref ref none)) := by
  refine ⟨fun run u oid hu => ?_, h.names, h.fresh⟩
  by_cases hname : candidateRef isAlnum run u = ref
  · subst hname
    rw [repo.refs_write_self] at hu
    cases hu
  · exact h.refs run u oid ((repo.refs_write_ne hname none).symm.trans hu)

/-! ## One call, cut short anywhere -/

theorem agreed_claim (h : Agreed isAlnum repo) (m : TransactionManifest) :
    Agreed isAlnum (repo.write (.claim m)) := h.same rfl fun _ _ => rfl

theorem agreed_release (h : Agreed isAlnum repo) (t : String) :
    Agreed isAlnum (repo.write (.release t)) := h.same rfl fun _ _ => rfl

theorem agreed_review (h : Agreed isAlnum repo) {m : TransactionManifest} {message : String}
    {failures : List String} {writes : List Write} {result : Result}
    (hrun : recordCandidateReview canonicalDigest sha256 m message failures repo =
      (writes, result)) (n : Nat)
    (habsent : 2 ≤ n → writes ≠ [] →
      ∀ run, repo.refs (candidateRef isAlnum run m.transactionId) = none) :
    Agreed isAlnum (repo.writeAll (writes.take n)) := by
  obtain ⟨rfl, -⟩ | ⟨-, rfl, -⟩ := review_cases hrun
  · simpa using h
  · match n with
    | 0 => exact h
    | 1 => exact agreed_claim h m
    | n + 2 =>
        simp only [List.take_succ_cons, List.take_nil, Repo.writeAll_cons, Repo.writeAll_nil]
        exact (agreed_claim h m).journal_absent (habsent (by omega) (by simp)) (.inl rfl)
          fun _ => ⟨rfl, rfl⟩

theorem agreed_building (hslash : isAlnum '/' = false) (h : Agreed isAlnum repo)
    {p : PublishRequest} {writes : List Write} {result : Result}
    (hbuilding : Building canonicalDigest isAlnum p repo writes result)
    (habsent : ∀ run, repo.refs (candidateRef isAlnum run p.manifest.transactionId) = none)
    (n : Nat) (hwindow : RefCreated isAlnum p repo → 2 ≤ n → n ≠ 2 ∧ p.after = .same) :
    Agreed isAlnum (repo.writeAll (writes.take n)) := by
  have hprepared : ∀ checkedOut, Agreed isAlnum (repo.write (.journal p.manifest.transactionId
      (preparedJournal canonicalDigest p.manifest checkedOut repo.index))) := fun checkedOut =>
    h.journal_absent habsent (.inl rfl) (by simp [preparedJournal])
  cases hbuilding with
  | refused message => simpa using h
  | unbuilt checkedOut message =>
      rcases n with _ | n
      · exact h
      · simpa using hprepared checkedOut
  | unsigned checkedOut message =>
      rcases n with _ | _ | n
      · exact h
      · exact hprepared checkedOut
      · simp only [List.take_succ_cons, List.take_nil, Repo.writeAll_cons, Repo.writeAll_nil]
        exact (hprepared checkedOut).journal_absent habsent (.inl rfl) (by simp)
  | unreadable checkedOut oid message created after =>
      rcases n with _ | _ | n
      · exact h
      · exact hprepared checkedOut
      · have hsame := (hwindow created (by omega)).2
        rw [after] at hsame
        cases hsame
  | drifted checkedOut oid message created after =>
      rcases n with _ | _ | n
      · exact h
      · exact hprepared checkedOut
      · have hsame := (hwindow created (by omega)).2
        rw [after] at hsame
        cases hsame
  | published checkedOut oid commit created =>
      rcases n with _ | _ | _ | n
      · exact h
      · exact hprepared checkedOut
      · exact absurd rfl (hwindow created (by omega)).1
      · simp only [List.take_succ_cons, List.take_nil, Repo.writeAll_cons, Repo.writeAll_nil]
        exact (hprepared checkedOut).publish hslash habsent rfl rfl rfl
          (by simp [publishedJournal])

theorem absent_of_reviewed (h : Agreed isAlnum repo) {p : PublishRequest}
    (hj : repo.journals p.manifest.transactionId = some j)
    (hreviewed : Reviewed canonicalDigest sha256 p j) (run : String) :
    repo.refs (candidateRef isAlnum run p.manifest.transactionId) = none :=
  h.absent hj (.inl (h.fresh _ j hj (.inl hreviewed.state)).1) run

theorem agreed_publish (hslash : isAlnum '/' = false) (h : Agreed isAlnum repo)
    {p : PublishRequest} {writes : List Write} {result : Result}
    (hrun : publishReviewedCandidate canonicalDigest sha256 isAlnum p repo = (writes, result))
    (n : Nat)
    (hwindow : createsRef canonicalDigest sha256 isAlnum p repo → 2 ≤ n →
      n ≠ 2 ∧ p.after = .same) :
    Agreed isAlnum (repo.writeAll (writes.take n)) := by
  cases publishing hrun with
  | refused message => simpa using h
  | mutated j message found reviewed =>
      match n with
      | 0 => exact h
      | n + 1 =>
          simp only [List.take_succ_cons, List.take_nil, Repo.writeAll_cons, Repo.writeAll_nil]
          exact h.rewrite found rfl rfl rfl (by simp)
  | built j _ _ found reviewed hooks building =>
      exact agreed_building hslash h building (absent_of_reviewed h found reviewed) n
        fun created hn => hwindow ⟨⟨j, found, currentReview_eq_ok.mpr reviewed⟩, hooks, created⟩ hn
  | unverified j published writes message found reviewed hooks building =>
      have habsent := absent_of_reviewed h found reviewed
      have hprefix := agreed_building hslash h building habsent n
        fun created hn => hwindow ⟨⟨j, found, currentReview_eq_ok.mpr reviewed⟩, hooks, created⟩ hn
      cases building with
      | published checkedOut oid commit created =>
          match n with
          | 0 => exact h
          | 1 => exact hprefix
          | 2 => exact hprefix
          | 3 => exact hprefix
          | n + 4 =>
              have hpublished := hprefix
              simp only [List.take_succ_cons, List.take_nil, Repo.writeAll_cons,
                Repo.writeAll_nil, List.cons_append, List.nil_append] at hpublished ⊢
              exact hpublished.rewrite (Repo.journals_write_self _ _ _) rfl rfl rfl (by simp)

theorem agreed_request (h : Agreed isAlnum repo) {automatic : Bool} {diff : Option (List Char)}
    {writes : List Write} {result : Result}
    (hrun : requestIntegration t automatic diff repo = (writes, result)) (n : Nat) :
    Agreed isAlnum (repo.writeAll (writes.take n)) := by
  obtain ⟨rfl, -⟩ | ⟨j, hj, -, ⟨-, reason, rfl, -⟩ | ⟨-, reason, _, rfl, -⟩ |
    ⟨-, -, _, -, rfl, -⟩⟩ := request_cases hrun
  · simpa using h
  · match n with
    | 0 => exact h
    | n + 1 =>
        simp only [List.take_succ_cons, List.take_nil, Repo.writeAll_cons, Repo.writeAll_nil]
        exact h.rewrite hj rfl rfl rfl (by simp)
  · match n with
    | 0 => exact h
    | n + 1 =>
        simp only [List.take_succ_cons, List.take_nil, Repo.writeAll_cons, Repo.writeAll_nil]
        exact h.rewrite hj rfl rfl rfl (by simp)
  · have hready : Agreed isAlnum (repo.write (.journal t { j with state := .handoffReady })) :=
      h.rewrite hj rfl rfl rfl (by simp)
    match n with
    | 0 => exact h
    | 1 => exact hready
    | n + 2 => simpa using agreed_release hready t

theorem agreed_recover (h : Agreed isAlnum repo) {writes : List Write} {result : Result}
    (hrun : recoverTransaction t repo = (writes, result)) (n : Nat) :
    Agreed isAlnum (repo.writeAll (writes.take n)) := by
  obtain ⟨-, rfl, -⟩ | ⟨j, hj, ⟨rfl, -⟩ | ⟨-, -, -, reason, rfl, -⟩ |
    ⟨halive, hempty, action, rfl, -⟩⟩ := recover_cases hrun
  · simpa using h
  · simpa using h
  · have hlost : Agreed isAlnum
        (repo.write (.journal t { j with state := .failed, reason := reason })) :=
      h.rewrite hj rfl rfl rfl (by simp)
    match n with
    | 0 => exact h
    | 1 => exact hlost
    | n + 2 => simpa using agreed_release hlost t
  · match n with
    | 0 => exact h
    | n + 1 =>
        simp only [List.take_succ_cons, List.take_nil, Repo.writeAll_cons, Repo.writeAll_nil]
        exact h.rewrite hj rfl rfl rfl fun _ => ⟨hempty, halive⟩

theorem agreed_collect (h : Agreed isAlnum repo) {age : Int} {referenced deletable : Bool}
    {writes : List Write} {result : Result}
    (hrun : collectCandidate t age referenced deletable repo = (writes, result)) (n : Nat)
    (hdeletable : ∀ j, repo.journals t = some j → expired j age referenced = true →
      (repo.refs j.candidateRef).isSome → deletable = true) :
    Agreed isAlnum (repo.writeAll (writes.take n)) := by
  obtain ⟨rfl, -⟩ | ⟨j, reason, hj, hexpired, -, rfl⟩ := collect_cases hrun
  · simpa using h
  · split
    · next hdeleted =>
        -- the ref the journal names was the only one
        have hgone := h.deleteRef j.candidateRef
        have habsent : ∀ run, (repo.write (.ref j.candidateRef none)).refs
            (candidateRef isAlnum run t) = none := by
          intro run
          by_cases hname : candidateRef isAlnum run t = j.candidateRef
          · rw [hname]
            exact repo.refs_write_self _ _
          · rw [repo.refs_write_ne hname]
            cases hrun' : repo.refs (candidateRef isAlnum run t) with
            | none => rfl
            | some oid =>
                obtain ⟨j', hj', -, hname', -⟩ := h.refs run t oid hrun'
                obtain rfl := Option.some.inj (hj.symm.trans hj')
                exact absurd hname'.symm hname
        have htomb : Agreed isAlnum ((repo.write (.ref j.candidateRef none)).write (.journal t
            { j with state := .failed, reason := reason, tombstoned := true })) :=
          hgone.journal_absent habsent (h.names t j hj) (by simp)
        match n with
        | 0 => exact h
        | 1 => exact hgone
        | 2 => exact htomb
        | n + 3 => simpa using agreed_release htomb t
    · next hkept =>
        have habsent : ∀ run, repo.refs (candidateRef isAlnum run t) = none := by
          intro run
          cases hrun' : repo.refs (candidateRef isAlnum run t) with
          | none => rfl
          | some oid =>
              obtain ⟨j', hj', -, hname, hoid⟩ := h.refs run t oid hrun'
              obtain rfl := Option.some.inj (hj.symm.trans hj')
              rw [← hname] at hrun'
              refine absurd ⟨?_, ?_, ?_⟩ hkept
              · rw [hname]
                exact candidateRef_ne_empty run t
              · exact hdeletable j hj hexpired (by rw [hrun']; rfl)
              · rw [hrun', hoid]
        have htomb : Agreed isAlnum (repo.write (.journal t
            { j with state := .failed, reason := reason, tombstoned := true })) :=
          h.journal_absent habsent (h.names t j hj) (by simp)
        match n with
        | 0 => exact h
        | 1 => exact htomb
        | n + 2 => simpa using agreed_release htomb t

theorem agreed_step (hslash : isAlnum '/' = false) (h : Agreed isAlnum repo) {deed : Deed}
    (hstep : DeedStep canonicalDigest sha256 isAlnum repo deed repo') : Agreed isAlnum repo' := by
  obtain ⟨hunbroken, rfl⟩ := hstep
  obtain ⟨call, stop⟩ := deed
  -- the writes made are the first `n`, where a call that is not killed makes them all
  obtain ⟨n, hn, hall⟩ : ∃ n, Deed.writes canonicalDigest sha256 isAlnum ⟨call, stop⟩ repo =
      (call.run canonicalDigest sha256 isAlnum repo).1.take n ∧
      ((stop = none ∧ 5 ≤ n) ∨ stop = some n) := by
    cases stop with
    | some k => exact ⟨k, rfl, .inr rfl⟩
    | none =>
        refine ⟨(call.run canonicalDigest sha256 isAlnum repo).1.length + 5, ?_, .inl ⟨rfl, ?_⟩⟩
        · exact (List.take_of_length_le (Nat.le_add_right _ 5)).symm
        · omega
  rw [hn]
  cases hrun : call.run canonicalDigest sha256 isAlnum repo with
  | mk writes result =>
      have hstop : ∀ k, 2 ≤ n → k < 2 → stop ≠ some k := by
        intro k hge hk hstop
        rcases hall with ⟨hnone, -⟩ | hsome
        · rw [hnone] at hstop
          cases hstop
        · have := Option.some.inj (hsome.symm.trans hstop)
          omega
      cases call with
      | review m message failures =>
          refine agreed_review h hrun n fun hge hwrites => ?_
          obtain ⟨rfl, -⟩ | ⟨halive, -, -⟩ := review_cases hrun
          · exact absurd rfl hwrites
          · refine hunbroken ?_ (hstop 0 hge (by omega)) (hstop 1 hge (by omega)) ?_
            · by_contra hfailures
              have hnil : recordCandidateReview canonicalDigest sha256 m message failures repo =
                  (writes, result) := hrun
              unfold recordCandidateReview at hnil
              split at hnil
              · cases hnil
                exact hwrites rfl
              · cases hnil
                exact hwrites rfl
            · cases hj : repo.journals m.transactionId with
              | none => rfl
              | some j => simpa using halive j hj
      | publish p =>
          refine agreed_publish hslash h hrun n fun hcreates hge => ?_
          have hwindow := hunbroken hcreates (hstop 0 hge (by omega)) (hstop 1 hge (by omega))
          refine ⟨?_, hwindow.2⟩
          rintro rfl
          rcases hall with ⟨-, hlarge⟩ | hsome
          · omega
          · exact hwindow.1 hsome
      | request t automatic diff => exact agreed_request h hrun n
      | recover t => exact agreed_recover h hrun n
      | collect t age referenced deletable => exact agreed_collect h hrun n hunbroken
      | release t =>
          cases hrun
          match n with
          | 0 => exact h
          | n + 1 => simpa using agreed_release h t
      | move ref oid =>
          cases hrun
          match n with
          | 0 => exact h
          | n + 1 =>
              simp only [List.take_succ_cons, List.take_nil, Repo.writeAll_cons,
                Repo.writeAll_nil]
              exact h.same rfl fun run t => repo.refs_write_ne (hunbroken run t).symm oid
      | checkout ref =>
          cases hrun
          match n with
          | 0 => exact h
          | n + 1 =>
              simp only [List.take_succ_cons, List.take_nil, Repo.writeAll_cons,
                Repo.writeAll_nil]
              exact h.same rfl fun _ _ => rfl
      | stage digest =>
          cases hrun
          match n with
          | 0 => exact h
          | n + 1 =>
              simp only [List.take_succ_cons, List.take_nil, Repo.writeAll_cons,
                Repo.writeAll_nil]
              exact h.same rfl fun _ _ => rfl

/-! ## Runs -/

/-- A publication that nothing but the transaction's own records can stop. -/
structure Publishable (p : PublishRequest) (repo : Repo) : Prop where
  owned : p.failures = []
  hooks : p.hooks = .passed
  attached : repo.checkedOut.isSome
  built : p.treeBuilds = true
  committed : p.commit.isSome
  writable : p.refWritable = true
  after : p.after = .same
  signed : p.requireSignature = true → p.verifies = true

theorem publish_reviewed {p : PublishRequest} (hp : Publishable p repo)
    (hj : repo.journals p.manifest.transactionId =
      some (reviewJournal canonicalDigest sha256 p.manifest p.message))
    (habsent : repo.refs (candidateRef isAlnum p.manifest.runId p.manifest.transactionId) = none) :
    ∃ j, (publishReviewedCandidate canonicalDigest sha256 isAlnum p repo).2 = .journal j ∧
      j.state = .candidatePublished := by
  obtain ⟨checkedOut, hattached⟩ := Option.isSome_iff_exists.mp hp.attached
  obtain ⟨oid, hcommit⟩ := Option.isSome_iff_exists.mp hp.committed
  have hreview : currentReview canonicalDigest sha256 p
      (reviewJournal canonicalDigest sha256 p.manifest p.message) = .ok () :=
    currentReview_eq_ok.mpr ⟨rfl, rfl, rfl, rfl, rfl⟩
  have hbuild : buildAndPublishCandidate canonicalDigest isAlnum p repo =
      ([.journal p.manifest.transactionId
          (preparedJournal canonicalDigest p.manifest checkedOut repo.index),
        .ref (candidateRef isAlnum p.manifest.runId p.manifest.transactionId) (some oid),
        .journal p.manifest.transactionId (publishedJournal
          (preparedJournal canonicalDigest p.manifest checkedOut repo.index)
          (candidateRef isAlnum p.manifest.runId p.manifest.transactionId) oid)],
      .journal (publishedJournal
        (preparedJournal canonicalDigest p.manifest checkedOut repo.index)
        (candidateRef isAlnum p.manifest.runId p.manifest.transactionId) oid)) := by
    unfold buildAndPublishCandidate
    simp [hp.owned, hattached, hp.built, hcommit, hp.writable, hp.after, habsent]
  have hsigned : (p.requireSignature && !p.verifies) = false := by
    cases hrequire : p.requireSignature with
    | false => rfl
    | true => rw [hp.signed hrequire]; rfl
  unfold publishReviewedCandidate
  simp only [hj, hreview, hp.hooks, hbuild, hsigned]
  exact ⟨_, rfl, rfl⟩

theorem rebuilt {p : PublishRequest} (hp : p.manifest.transactionId = t)
    (hpublishable : Publishable p repo) (hj : repo.journals t = some j)
    (halive : j.tombstoned = false)
    (habsent : ∀ run, repo.refs (candidateRef isAlnum run t) = none) :
    (∃ j', (recordCandidateReview canonicalDigest sha256 p.manifest p.message [] repo).2 =
        .journal j') ∧
      ∃ j', (publishReviewedCandidate canonicalDigest sha256 isAlnum p (repo.writeAll
        (recordCandidateReview canonicalDigest sha256 p.manifest p.message [] repo).1)).2 =
        .journal j' ∧ j'.state = .candidatePublished := by
  subst hp
  have hreview : recordCandidateReview canonicalDigest sha256 p.manifest p.message [] repo =
      ([.claim p.manifest, .journal p.manifest.transactionId
          (reviewJournal canonicalDigest sha256 p.manifest p.message)],
        .journal (reviewJournal canonicalDigest sha256 p.manifest p.message)) := by
    unfold recordCandidateReview
    rw [if_neg (by simp [hj, halive]), if_neg (by simp)]
    rfl
  rw [hreview]
  refine ⟨⟨_, rfl⟩, publish_reviewed ?_ (Repo.journals_write_self _ _ _) (habsent _)⟩
  obtain ⟨owned, hooks, attached, built, committed, writable, after, signed⟩ := hpublishable
  exact ⟨owned, hooks, attached, built, committed, writable, after, signed⟩

/-- What a recovery that returns has made true. -/
structure Reconciled (canonicalDigest : TransactionManifest → String) (sha256 : String → String)
    (isAlnum : Char → Bool) (t : String) (repo : Repo) (result : Result) : Prop where
  named : ∀ run, (repo.refs (candidateRef isAlnum run t)).isSome ↔
    ∃ j, repo.journals t = some j ∧ j.candidateRef = candidateRef isAlnum run t ∧
      repo.refs (candidateRef isAlnum run t) = some j.candidateOid
  again : ∀ j, result = .journal j → j.state = .recovered →
    ∀ p : PublishRequest, p.manifest.transactionId = t → Publishable p repo →
      let review := recordCandidateReview canonicalDigest sha256 p.manifest p.message [] repo
      (∃ j', review.2 = .journal j') ∧
        ∃ j', (publishReviewedCandidate canonicalDigest sha256 isAlnum p
          (repo.writeAll review.1)).2 = .journal j' ∧ j'.state = .candidatePublished

theorem recovery_agrees (canonicalDigest : TransactionManifest → String)
    (sha256 : String → String) (isAlnum : Char → Bool) (hslash : isAlnum '/' = false)
    (start : Repo) (hjournals : ∀ t, start.journals t = none)
    (hrefs : ∀ run t, start.refs (candidateRef isAlnum run t) = none) (deeds : List Deed)
    (repo : Repo) (hrun : Run (DeedStep canonicalDigest sha256 isAlnum) start deeds repo) :
    (∀ t, Reconciled canonicalDigest sha256 isAlnum t
      (repo.writeAll (recoverTransaction t repo).1) (recoverTransaction t repo).2) ∧
    ∀ t j, repo.journals t = some j → j.tombstoned = true →
      ∀ run, repo.refs (candidateRef isAlnum run t) = none := by
  have h0 : Agreed isAlnum start := by
    refine ⟨fun run t oid href => ?_, fun t j hj => ?_, fun t j hj => ?_⟩
    · rw [hrefs run t] at href
      cases href
    · rw [hjournals t] at hj
      cases hj
    · rw [hjournals t] at hj
      cases hj
  have h : Agreed isAlnum repo := hrun.invariant h0 fun _ _ _ hs hstep => agreed_step hslash hs hstep
  refine ⟨fun t => ?_, fun t j hj htomb run => h.absent hj (.inr htomb) run⟩
  cases hrecover : recoverTransaction t repo with
  | mk writes result =>
      have h' : Agreed isAlnum (repo.writeAll writes) := by
        have hall := agreed_recover h hrecover writes.length
        rwa [List.take_length] at hall
      refine ⟨fun run => ⟨fun hsome => ?_, fun ⟨j, _, _, hoid⟩ => ?_⟩, ?_⟩
      · obtain ⟨oid, href⟩ := Option.isSome_iff_exists.mp hsome
        obtain ⟨j, hj, -, hname, rfl⟩ := h'.refs run t oid href
        exact ⟨j, hj, hname, href⟩
      · dsimp only at hoid ⊢
        rw [hoid]
        rfl
      · intro j hresult hstate p hp hpublishable
        obtain ⟨-, -, e, he⟩ | ⟨j₀, hj₀, ⟨-, he, hkept⟩ | ⟨-, -, -, reason, -, he⟩ |
          ⟨halive, hempty, action, rfl, -⟩⟩ := recover_cases hrecover
        · rw [he] at hresult
          cases hresult
        · rw [he] at hresult
          cases hresult
          obtain ⟨hempty, halive⟩ := h.fresh t _ hj₀ (.inr hstate)
          rcases hkept with htomb | ⟨hname, -⟩
          · rw [halive] at htomb
            cases htomb
          · exact absurd hempty hname
        · rw [he] at hresult
          cases hresult
          cases hstate
        · exact rebuilt hp hpublishable (Repo.journals_write_self _ _ _) halive
            fun run => h'.absent (Repo.journals_write_self _ _ _) (.inl hempty) run

end

/-! ## A publication killed before and after the ref is created -/

theorem candidateRef_ne_main (isAlnum : Char → Bool) (run t : String) :
    candidateRef isAlnum run t ≠ "refs/heads/main" := by
  intro h
  have hlist := congrArg String.toList h
  unfold candidateRef candidateRefNamespace at hlist
  simp at hlist

theorem sampleStart_refs (run t : String) :
    sampleStart.refs (candidateRef Char.isAlphanum run t) = none := by
  show (if candidateRef Char.isAlphanum run t = "refs/heads/main" then
    some sampleManifest.parentOid else none) = none
  rw [if_neg (candidateRef_ne_main Char.isAlphanum run t)]

/-- The sample's publication, killed after `n` writes. -/
def sampleKilled (n : Nat) : Repo :=
  sampleReviewed.writeAll
    ((sampleEvent sampleReviewed (.publish (samplePublish false))).writes.take n)

theorem recovery_agrees_sample :
    Reconciled sampleCanonicalDigest sampleSha256 Char.isAlphanum "t1"
      ((sampleKilled 1).writeAll (recoverTransaction "t1" (sampleKilled 1)).1)
      (recoverTransaction "t1" (sampleKilled 1)).2 := by
  have hrun : Run (DeedStep sampleCanonicalDigest sampleSha256 Char.isAlphanum) sampleStart
      [⟨sampleReview, none⟩, ⟨.publish (samplePublish false), some 1⟩] (sampleKilled 1) := by
    have hreview : DeedStep sampleCanonicalDigest sampleSha256 Char.isAlphanum sampleStart
        ⟨sampleReview, none⟩ sampleReviewed :=
      ⟨fun _ _ _ _ run => sampleStart_refs run _, rfl⟩
    have hpublish : DeedStep sampleCanonicalDigest sampleSha256 Char.isAlphanum sampleReviewed
        ⟨.publish (samplePublish false), some 1⟩ (sampleKilled 1) :=
      ⟨fun _ _ hstop => absurd rfl hstop, rfl⟩
    exact (Run.nil.snoc hreview).snoc hpublish
  exact (recovery_agrees sampleCanonicalDigest sampleSha256 Char.isAlphanum (by decide)
    sampleStart (fun _ => rfl) sampleStart_refs _ (sampleKilled 1) hrun).1 "t1"

/-- The recovery of the publication killed right after `update-ref`. -/
def sampleRecovered : Repo := sampleAfter (sampleKilled 2) (.recover "t1")

/-- Killed between the two, the transaction is reported recovered, cannot be published again, and is
tombstoned with its ref in place. -/
theorem killed_publication_keeps_ref :
    (sampleRecovered.journals "t1").map (fun j => (j.state, j.recoveryAction, j.candidateRef)) =
        some (.recovered, "safe_to_rebuild_and_re_review", "") ∧
      (sampleRecovered.refs sampleRef).isSome = true ∧
      (sampleEvent (sampleAfter sampleRecovered sampleReview)
        (.publish (samplePublish false))).result = .raised "git update-ref failed" ∧
      ((sampleAfter sampleRecovered (.collect "t1" 31 false true)).journals "t1").map
        (fun j => j.tombstoned) = some true ∧
      ((sampleAfter sampleRecovered (.collect "t1" 31 false true)).refs sampleRef).isSome = true := by
  refine ⟨by rfl, by rfl, by rfl, by rfl, by rfl⟩

end TrwMcp.GitTxn
