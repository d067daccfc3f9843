import TrwMcp.Handoff.Check
import TrwMcp.Handoff.RoundTrip

/-!
# What a strict pre-flight says

A receiver that acts without a person reading the report wants positive evidence: `RecordEvidence`
for the record and what it points to, `CheckoutEvidence` for the tree. The report of a strict check
is clean where the record has its evidence and nothing in the checkout was seen to differ
(`Accepted`); between the two lie the checkouts that were not looked at.
-/

namespace TrwMcp.Handoff.Check

open Lib Intent

section

variable (lib : Stdlib)

/-! ## Evidence -/

/-- The pointer was opened, and holds what the sender read. -/
def PointerMatched (tree : Tree) (ptr : Json) : Prop :=
  ∃ uri path raw found, ptr.get? "uri" = some (.str uri) ∧ confinedPath tree uri = .ok path ∧
    tree.present path = true ∧ tree.read path = some raw ∧
    observed lib (ptr.get? "kind") raw = .ok found ∧ ptr.get? "digest" = some (.str found)

/-- The source was opened, is the one the sender read, and the text is part of it. -/
def QuoteMatched (tree : Tree) (con : Option Json × Json) : Prop :=
  ∃ uri text path raw content, con.2.get? "uri" = some (.str uri) ∧ con.1 = some (.str text) ∧
    confinedPath tree uri = .ok path ∧ tree.present path = true ∧
    readCapped tree path maxSourceBytes = some raw ∧
    con.2.get? "digest" = some (.str (rawDigest lib raw)) ∧
    String.fromUTF8? raw = some content ∧ text.toList <:+: content.toList

/-- Among the valid records of the subject no id has two contents, none supersedes this record, none
supersedes one of a higher tier, and at most one is a head. -/
def Current (r : Receiver) (doc : Json) : Prop :=
  ∃ records me links, recordsOf lib doc r.path (handoffFiles r.found) = .ok (records, []) ∧
    doc.strItem "handoff_id" = .ok me ∧ linksOf records = .ok links ∧
    (∀ link ∈ links, link.prior ≠ me) ∧ (∀ link ∈ links, isDowngrade records link = .ok false) ∧
    (records.filter (isHead links me r.now)).length ≤ 1

structure RecordEvidence (r : Receiver) (doc : Json) : Prop where
  digest : ∃ d, Handoff.digest lib doc = .ok d ∧ r.expected = some d
  valid : validate lib doc none = .ok []
  unexpired : ∀ raw, doc.get? "expires_at" = some (.str raw) →
    ∃ expires, instant raw = .ok expires ∧ r.now < expires
  current : Current lib r doc
  pointers : ∀ ptr ∈ nextRead doc, PointerMatched lib r.tree ptr
  constraints : ∀ con ∈ sourced doc, QuoteMatched lib r.tree con

/-- The recorded commit is in the history of `HEAD`, the tree states are known and agree, and the
recorded paths of two dirty trees were read, checked and are the current ones. -/
def CheckoutEvidence (r : Receiver) (doc : Json) : Prop :=
  r.inGit = true ∧ ∃ ref, baseRef doc = some ref ∧
    (∃ c n, ref.get? "commit" = some (.str c) ∧ isFullCommit c = true ∧
      r.commitsSince c = some n) ∧
    ref.get? "tree_state" = some (.str r.git.treeState) ∧ r.git.treeState ≠ "unknown" ∧
    (r.git.treeState = "dirty" → ∃ recorded, recordedChanged lib r.tree ref = .ok recorded ∧
      ∀ p, p ∈ recorded ↔ p ∈ r.git.changed)

/-- What the code accepts: a recorded commit is in the history, the tree states are one text, and
the recorded paths of two dirty trees, if they were read, are the current ones. -/
def Accepted (r : Receiver) (doc : Json) : Prop :=
  r.inGit = true ∧ ∃ ref, baseRef doc = some ref ∧
    (∀ c, ref.get? "commit" = some (.str c) → isFullCommit c = true ∧
      ∃ n, r.commitsSince c = some n) ∧
    ref.get? "tree_state" = some (.str r.git.treeState) ∧
    ((ref.get? "commit").filter (· ≠ .null) = none →
      r.git.treeState ≠ "unknown" ∧ r.git.treeState ≠ "not_applicable") ∧
    (r.git.treeState = "dirty" → recordedChanged lib r.tree ref ≠ .error .digestMismatch ∧
      ∀ recorded, recordedChanged lib r.tree ref = .ok recorded →
        ∀ p, p ∈ recorded ↔ p ∈ r.git.changed)

/-- Nothing of the checkout is unknown: the record names a commit, the state of the tree is known,
and the sidecar of a dirty tree can be read. -/
def Seen (r : Receiver) (doc : Json) : Prop :=
  ∀ ref, baseRef doc = some ref →
    (∃ c, ref.get? "commit" = some (.str c)) ∧ r.git.treeState ≠ "unknown" ∧
    (r.git.treeState = "dirty" → recordedChanged lib r.tree ref ≠ .error .notChecked)

end

section

variable {lib : Stdlib} {tree : Tree} {r : Receiver} {doc : Json}

theorem recordedChanged_error {ref : Json} {status : SidecarStatus}
    (h : recordedChanged lib tree ref = .error status) :
    status = .notChecked ∨ status = .digestMismatch := by
  unfold recordedChanged at h
  dsimp only at h
  split at h
  · split at h
    · exact .inl (Except.error.inj h).symm
    · split at h
      · exact .inl (Except.error.inj h).symm
      · split at h
        · exact .inr (Except.error.inj h).symm
        · split at h
          · exact .inl (Except.error.inj h).symm
          · cases h
  · exact .inl (Except.error.inj h).symm

theorem Accepted.evidence (h : Accepted lib r doc) (hseen : Seen lib r doc) :
    CheckoutEvidence lib r doc := by
  obtain ⟨hgit, ref, href, hcommit, htree, -, hdirty⟩ := h
  obtain ⟨⟨c, hc⟩, hknown, hread⟩ := hseen ref href
  obtain ⟨hfull, n, hn⟩ := hcommit c hc
  refine ⟨hgit, ref, href, ⟨c, n, hc, hfull, hn⟩, htree, hknown, fun hd => ?_⟩
  obtain ⟨hdigest, hpaths⟩ := hdirty hd
  have hnot := hread hd
  cases hrec : recordedChanged lib r.tree ref with
  | ok recorded => exact ⟨recorded, rfl, hpaths recorded hrec⟩
  | error status =>
      rcases recordedChanged_error hrec with rfl | rfl
      · exact absurd hrec hnot
      · exact absurd hrec hdigest

theorem CheckoutEvidence.seen (h : CheckoutEvidence lib r doc) : Seen lib r doc := by
  obtain ⟨-, ref, href, ⟨c, n, hc, -, -⟩, -, hknown, hdirty⟩ := h
  intro ref' href'
  obtain rfl := Option.some.inj (href.symm.trans href')
  refine ⟨⟨c, hc⟩, hknown, fun hd herror => ?_⟩
  obtain ⟨recorded, hok, -⟩ := hdirty hd
  rw [herror] at hok
  cases hok

/-! ## The sections of the report -/

theorem isPartOf_iff {text content : String} :
    isPartOf text content = true ↔ text.toList <:+: content.toList := by
  rw [isPartOf, List.any_eq_true]
  constructor
  · rintro ⟨rest, hrest, hpre⟩
    exact (List.isPrefixOf_iff_prefix.mp hpre).isInfix.trans
      ((List.mem_tails _ _).mp hrest).isInfix
  · rintro ⟨before, after, h⟩
    refine ⟨text.toList ++ after, (List.mem_tails _ _).mpr ⟨before, ?_⟩, ?_⟩
    · rw [← List.append_assoc, h]
    · exact List.isPrefixOf_iff_prefix.mpr (List.prefix_append _ _)

theorem quote_clean {con : Option Json × Json} :
    (quoteStatus lib tree con.1 con.2).clean true = true ↔ QuoteMatched lib tree con := by
  constructor
  · intro h
    have hmatched : quoteStatus lib tree con.1 con.2 = .matched := by
      cases hs : quoteStatus lib tree con.1 con.2 <;> rw [hs] at h <;> first | rfl | cases h
    unfold quoteStatus at hmatched
    split at hmatched
    case h_2 => cases hmatched
    next uri text huri htext =>
    split at hmatched
    · cases hmatched
    next path hpath =>
    split at hmatched
    · cases hmatched
    next hpresent =>
    split at hmatched
    · cases hmatched
    next raw hraw =>
    split at hmatched
    · cases hmatched
    next hdigest =>
    split at hmatched
    · cases hmatched
    next content hcontent =>
    split at hmatched
    next hpart =>
      exact ⟨uri, text, path, raw, content, huri, htext, hpath, by simpa using hpresent, hraw,
        not_not.mp hdigest, hcontent, isPartOf_iff.mp hpart⟩
    · cases hmatched
  · rintro ⟨uri, text, path, raw, content, huri, htext, hpath, hpresent, hraw, hdigest, hcontent,
      hpart⟩
    have hmatched : quoteStatus lib tree con.1 con.2 = .matched := by
      unfold quoteStatus
      rw [huri, htext]
      dsimp only
      rw [hpath]
      dsimp only
      rw [hpresent, hraw]
      dsimp only
      rw [if_neg (by decide), if_neg (not_not.mpr hdigest), hcontent]
      dsimp only
      rw [if_pos (isPartOf_iff.mpr hpart)]
    rw [hmatched]
    rfl

theorem pointer_clean {ptr : Json} {status : PointerStatus}
    (h : pointerCheck lib tree ptr = .ok status) :
    status.clean true = true ↔ PointerMatched lib tree ptr := by
  unfold pointerCheck at h
  split at h
  case h_2 hno =>
    obtain rfl := Except.pure_eq_ok.mp h
    exact ⟨nofun, fun ⟨uri, _, _, _, huri, _⟩ => absurd huri (hno uri)⟩
  next uri huri =>
  have huri' : ∀ {u}, ptr.get? "uri" = some (.str u) → u = uri := fun hu =>
    Json.str.inj (Option.some.inj (hu.symm.trans huri))
  split at h
  · next reason hpath =>
    obtain rfl := Except.pure_eq_ok.mp h
    refine ⟨nofun, fun ⟨u, path, _, _, hu, hok, _⟩ => ?_⟩
    rw [huri' hu, hpath] at hok
    cases hok
  next path hpath =>
  have hpath' : ∀ {u p}, ptr.get? "uri" = some (.str u) → confinedPath tree u = .ok p →
      p = path := fun hu hp => by
    rw [huri' hu, hpath] at hp
    exact (Except.ok.inj hp).symm
  split at h
  · next hpresent =>
    obtain rfl := Except.pure_eq_ok.mp h
    refine ⟨nofun, fun ⟨u, p, _, _, hu, hok, hp, _⟩ => ?_⟩
    rw [hpath' hu hok] at hp
    simp [hp] at hpresent
  next hpresent =>
  split at h
  · next hdigest =>
    obtain rfl := Except.pure_eq_ok.mp h
    refine ⟨nofun, fun ⟨_, _, _, _, _, _, _, _, _, hd⟩ => ?_⟩
    rw [hdigest] at hd
    cases hd
  next recorded hdigest =>
  split at h
  · next hread =>
    obtain rfl := Except.pure_eq_ok.mp h
    refine ⟨nofun, fun ⟨u, p, raw, _, hu, hok, _, hr, _⟩ => ?_⟩
    rw [hpath' hu hok, hread] at hr
    cases hr
  next raw hread =>
  obtain ⟨found, hfound, h⟩ := Except.bind_eq_ok.mp h
  obtain rfl := Except.pure_eq_ok.mp h
  split
  · next heq =>
    refine iff_of_true rfl ⟨uri, path, raw, found, huri, hpath, by simpa using hpresent, hread,
      hfound, ?_⟩
    rw [hdigest, heq]
  · next hne =>
    refine ⟨nofun, fun ⟨u, p, raw', found', hu, hok, _, hr, hf, hd⟩ => absurd ?_ hne⟩
    rw [hpath' hu hok, hread] at hr
    obtain rfl := Option.some.inj hr
    rw [hfound] at hf
    obtain rfl := Except.ok.inj hf
    exact Option.some.inj (hdigest.symm.trans hd)

theorem pointers_clean {ptrs : List Json} {statuses : List PointerStatus}
    (h : ptrs.mapM (pointerCheck lib tree) = .ok statuses) :
    (∀ s ∈ statuses, s.clean true = true) ↔ ∀ ptr ∈ ptrs, PointerMatched lib tree ptr := by
  have hall := Except.forall₂_of_mapM h
  clear h
  induction hall with
  | nil => simp
  | cons hptr _ ih =>
      rw [List.forall_mem_cons, List.forall_mem_cons]
      exact and_congr (pointer_clean hptr) ih

theorem expiry_clean {now : Instant} :
    expiryOf doc now = .valid ∨ expiryOf doc now = .none ↔
      ∀ raw, doc.get? "expires_at" = some (.str raw) →
        ∃ expires, instant raw = .ok expires ∧ now < expires := by
  unfold expiryOf
  split
  · next raw hraw =>
    have hraw' : ∀ {t}, doc.get? "expires_at" = some (.str t) → t = raw := fun ht =>
      Json.str.inj (Option.some.inj (ht.symm.trans hraw))
    cases hinstant : instant raw with
    | error e =>
        refine ⟨fun h => by simp at h, fun h => ?_⟩
        obtain ⟨expires, hok, -⟩ := h raw hraw
        rw [hinstant] at hok
        cases hok
    | ok expires =>
        dsimp only
        by_cases hle : expires ≤ now
        · rw [if_pos hle]
          refine ⟨fun h => by simp at h, fun h => ?_⟩
          obtain ⟨t, hok, hlt⟩ := h raw hraw
          rw [hinstant] at hok
          obtain rfl := Except.ok.inj hok
          exact absurd hlt (not_lt.mpr hle)
        · rw [if_neg hle]
          refine iff_of_true (.inl rfl) fun t ht => ⟨expires, ?_, not_le.mp hle⟩
          rw [hraw' ht, hinstant]
  · next hno => exact iff_of_true (.inr rfl) fun raw hraw => absurd hraw (hno raw)

theorem sortedSet_eq_nil {xs : List String} : sortedSet xs = [] ↔ xs = [] := by
  rw [sortedSet, ← List.length_eq_zero_iff, List.length_insertionSort, List.length_eq_zero_iff]
  constructor
  · intro h
    refine List.eq_nil_iff_forall_not_mem.mpr fun x hx => ?_
    rw [← List.mem_dedup, h] at hx
    cases hx
  · rintro rfl
    rfl

theorem supersession_clean {s : Supersession} {path : String} {now : Instant}
    (hpath : r.path = path) (hnow : r.now = now)
    (h : supersession lib doc path (handoffFiles r.found) now = .ok s) :
    s.clean = true ↔ Current lib r doc := by
  subst hpath hnow
  simp only [supersession, Except.bind_eq_ok, Except.pure_eq_ok] at h
  obtain ⟨⟨records, duplicates⟩, hrecords, me, hme, digest, -, links, hlinks, ranked, hranked,
    dated, hdated, rfl⟩ := h
  have hlength : dated.length = (records.filter (isHead links me r.now)).length :=
    (Except.forall₂_of_mapM hdated).length_eq.symm
  have hdowngrades : (ranked.filter (·.2)) = [] ↔
      ∀ link ∈ links, isDowngrade records link = .ok false := by
    have hall := Except.forall₂_of_mapM hranked
    clear hranked hlinks hlength hdated
    induction hall with
    | nil => simp
    | @cons link m links ranked hm _ ih =>
        simp only [Except.bind_eq_ok, Except.pure_eq_ok] at hm
        obtain ⟨b, hb, rfl⟩ := hm
        rw [List.forall_mem_cons, hb]
        cases b
        · simpa using ih
        · simp
  have hsuccessors : links.filter (·.prior == me) = [] ↔ ∀ link ∈ links, link.prior ≠ me := by
    simp
  simp only [Supersession.clean, Bool.and_eq_true, beq_iff_eq, List.isEmpty_iff,
    List.map_eq_nil_iff, sortedSet_eq_nil, hdowngrades, List.length_map,
    List.length_insertionSort, hlength]
  constructor
  · rintro ⟨⟨hstatus, hdown⟩, rfl⟩
    have hheads : ¬ 1 < (records.filter (isHead links me r.now)).length := by
      intro hlt
      rw [if_pos hlt] at hstatus
      cases hstatus
    rw [if_neg hheads] at hstatus
    refine ⟨records, me, links, hrecords, hme, hlinks, hsuccessors.mp ?_, hdown, by omega⟩
    by_contra hno
    rw [if_neg hno] at hstatus
    cases hstatus
  · rintro ⟨records', me', links', hrecords', hme', hlinks', hsucc, hdown, hheads⟩
    obtain ⟨rfl, rfl⟩ := Prod.mk.inj (Except.ok.inj (hrecords'.symm.trans hrecords))
    obtain rfl := Except.ok.inj (hme'.symm.trans hme)
    obtain rfl := Except.ok.inj (hlinks'.symm.trans hlinks)
    refine ⟨⟨?_, hdown⟩, rfl⟩
    rw [if_neg (by omega), if_pos (hsuccessors.mpr hsucc)]

theorem samePaths_iff {recorded changed : List String} :
    samePaths recorded changed = true ↔ ∀ p, p ∈ recorded ↔ p ∈ changed := by
  simp only [samePaths, Bool.and_eq_true, List.all_eq_true, List.contains_iff_mem]
  exact ⟨fun h p => ⟨h.1 p, h.2 p⟩, fun h => ⟨fun p hp => (h p).mp hp, fun p hp => (h p).mpr hp⟩⟩

theorem git_status {status : GitStatus} :
    status.clean true = true ↔ status = .matched := by
  cases status <;> simp [GitStatus.clean]

theorem changedPaths_agree {ref : Json} :
    ¬ (changedPaths lib r.tree ref r.git = .drift ∨
      changedPaths lib r.tree ref r.git = .digestMismatch) ↔
      recordedChanged lib r.tree ref ≠ .error .digestMismatch ∧
        ∀ recorded, recordedChanged lib r.tree ref = .ok recorded →
          ∀ p, p ∈ recorded ↔ p ∈ r.git.changed := by
  unfold changedPaths
  cases hrec : recordedChanged lib r.tree ref with
  | error status => rcases recordedChanged_error hrec with rfl | rfl <;> simp
  | ok recorded =>
      dsimp only
      by_cases hsame : samePaths recorded r.git.changed = true
      · rw [if_pos hsame]
        refine iff_of_true (by simp) ⟨nofun, fun recorded' h => ?_⟩
        rw [← Except.ok.inj h]
        exact samePaths_iff.mp hsame
      · rw [if_neg hsame]
        refine iff_of_false (fun h => h (.inl rfl)) fun h => hsame ?_
        exact samePaths_iff.mpr (h.2 recorded rfl)

theorem compareTrees_matched {ref : Json} {status : GitStatus} {out : GitSection}
    (htree : status = .matched → ref.get? "tree_state" = some (.str r.git.treeState)) :
    (compareTrees lib r ref status out).status = .matched ↔ status = .matched ∧
      (r.git.treeState = "dirty" → recordedChanged lib r.tree ref ≠ .error .digestMismatch ∧
        ∀ recorded, recordedChanged lib r.tree ref = .ok recorded →
          ∀ p, p ∈ recorded ↔ p ∈ r.git.changed) := by
  unfold compareTrees
  by_cases hmatched : status = .matched
  · subst hmatched
    rw [htree rfl]
    by_cases hdirty : r.git.treeState = "dirty"
    · rw [if_pos ⟨congrArg (fun t => some (Json.str t)) hdirty, hdirty⟩]
      dsimp only
      rw [← changedPaths_agree]
      by_cases hdiffer : changedPaths lib r.tree ref r.git = .drift ∨
          changedPaths lib r.tree ref r.git = .digestMismatch
      · rw [if_pos ⟨hdiffer, rfl⟩]
        exact iff_of_false nofun fun h => h.2 hdirty hdiffer
      · rw [if_neg fun h => hdiffer h.1]
        exact iff_of_true rfl ⟨rfl, fun _ => hdiffer⟩
    · rw [if_neg fun h => hdirty h.2]
      exact iff_of_true rfl ⟨rfl, fun h => absurd h hdirty⟩
  · refine iff_of_false (fun h => hmatched ?_) fun h => hmatched h.1
    split at h
    · dsimp only at h
      rwa [if_neg fun h => hmatched h.2] at h
    · exact h

theorem compareTrees_diverged {ref : Json} (out : GitSection) :
    (compareTrees lib r ref .diverged out).status ≠ .matched := by
  have hno : GitStatus.diverged = .matched →
      ref.get? "tree_state" = some (.str r.git.treeState) := nofun
  intro h
  cases ((compareTrees_matched hno).mp h).1

theorem gitSection_matched : (gitSection lib r doc).status = .matched ↔ Accepted lib r doc := by
  unfold gitSection Accepted
  cases href : baseRef doc with
  | none => exact iff_of_false nofun fun ⟨_, _, h, _⟩ => nomatch h
  | some ref =>
      dsimp only
      simp only [Option.some.injEq, exists_eq_left']
      by_cases hincomparable : (ref.get? "commit").filter (· ≠ .null) = none ∧
          (ref.get? "tree_state" = some (.str "unknown") ∨
            ref.get? "tree_state" = some (.str "not_applicable"))
      · rw [if_pos hincomparable]
        refine iff_of_false nofun fun ⟨_, _, htree, hknown, _⟩ => ?_
        obtain ⟨hunknown, hna⟩ := hknown hincomparable.1
        rw [htree] at hincomparable
        rcases hincomparable.2 with h | h
        · exact hunknown (Json.str.inj (Option.some.inj h))
        · exact hna (Json.str.inj (Option.some.inj h))
      · rw [if_neg hincomparable]
        cases hgit : r.inGit with
        | false => exact iff_of_false nofun fun h => nomatch h.1
        | true =>
            have hknown : ref.get? "tree_state" = some (.str r.git.treeState) →
                (ref.get? "commit").filter (· ≠ .null) = none →
                r.git.treeState ≠ "unknown" ∧ r.git.treeState ≠ "not_applicable" := by
              intro htree hcommit
              constructor
              · intro h
                exact hincomparable ⟨hcommit, .inl (by rw [htree, h])⟩
              · intro h
                exact hincomparable ⟨hcommit, .inr (by rw [htree, h])⟩
            have hstatus : (if ref.get? "tree_state" = some (.str r.git.treeState) then
                GitStatus.matched else .drift) = .matched ↔
                ref.get? "tree_state" = some (.str r.git.treeState) := by
              split <;> simp_all
            rw [Bool.not_true, if_neg Bool.false_ne_true]
            simp only [true_and]
            split
            · next c hc =>
              have hcommit : ref.get? "commit" = some (.str c) := by
                rw [Option.filter_eq_some_iff] at hc
                exact hc.1
              rw [hcommit]
              simp only [Option.some.injEq, Json.str.injEq, forall_eq']
              by_cases hfull : isFullCommit c = true
              · rw [hfull, Bool.not_true, if_neg Bool.false_ne_true]
                cases hsince : r.commitsSince c with
                | none =>
                    refine iff_of_false (compareTrees_diverged _) ?_
                    rintro ⟨⟨-, n, hn⟩, -⟩
                    cases hn
                | some n =>
                    dsimp only
                    rw [compareTrees_matched hstatus.mp, hstatus]
                    constructor
                    · rintro ⟨htree, hdirty⟩
                      exact ⟨⟨rfl, n, rfl⟩, htree, fun h => by simp at h, hdirty⟩
                    · rintro ⟨-, htree, -, hdirty⟩
                      exact ⟨htree, hdirty⟩
              · rw [Bool.not_eq_true] at hfull
                rw [hfull, Bool.not_false, if_pos rfl]
                exact iff_of_false nofun fun h => nomatch h.1.1
            · next hno =>
              rw [compareTrees_matched hstatus.mp, hstatus]
              have hcommit : ∀ c, ref.get? "commit" ≠ some (.str c) := by
                intro c hc
                refine hno c ?_
                rw [hc]
                rfl
              constructor
              · rintro ⟨htree, hdirty⟩
                exact ⟨fun c hc => absurd hc (hcommit c), htree, hknown htree, hdirty⟩
              · rintro ⟨-, htree, -, hdirty⟩
                exact ⟨htree, hdirty⟩

theorem isClean_iff {report : CheckReport} (hstrict : report.strict = true) :
    isClean report = true ↔ report.digest = .matched ∧ report.findings = [] ∧
      (report.expiry = .valid ∨ report.expiry = .none) ∧
      (∃ s, report.supersession = some s ∧ s.clean = true) ∧
      (∀ p ∈ report.pointers, p.clean true = true) ∧ report.git.status = .matched ∧
      ∀ q ∈ report.constraints, q.clean true = true := by
  unfold isClean failing
  rw [hstrict, List.isEmpty_iff, List.map_eq_nil_iff, List.filter_eq_nil_iff]
  simp only [List.forall_mem_cons, List.not_mem_nil, false_imp_iff, implies_true, and_true,
    if_true, Bool.not_eq_true]
  refine and_congr bne_eq_false_iff_eq (and_congr ?_ (and_congr ?_ (and_congr ?_ (and_congr ?_
    (and_congr ?_ ?_)))))
  · rw [Bool.not_eq_false', List.isEmpty_iff]
  · cases report.expiry <;> simp
  · rw [Bool.not_eq_false', Option.any_eq_true]
  · simp
  · rw [Bool.not_eq_false', git_status]
  · simp

/-- A strict report is clean where the record has its evidence and nothing in the checkout was seen
to differ. -/
theorem checkRecord_clean {report : CheckReport} (h : checkRecord lib r true = .ok report) :
    ∃ doc, load lib r.raw = .ok doc ∧
      (isClean report = true ↔ RecordEvidence lib r doc ∧ Accepted lib r doc) := by
  simp only [checkRecord, Except.bind_eq_ok, Except.pure_eq_ok, Except.throw_ne_ok, ite_eq_iff,
    false_and, and_false, exists_false, false_or] at h
  obtain ⟨doc, hdoc, -, findings, hfindings, currency, hcurrency, recomputed, hrecomputed,
    statuses, hstatuses, rfl⟩ := h
  refine ⟨doc, hdoc, ?_⟩
  rw [isClean_iff rfl]
  dsimp only
  rw [expiry_clean, pointers_clean hstatuses, gitSection_matched, constraintSources,
    List.forall_mem_map]
  have hdigest : digestStatus recomputed r.expected = .matched ↔
      ∃ d, Handoff.digest lib doc = .ok d ∧ r.expected = some d := by
    unfold digestStatus
    rw [hrecomputed]
    cases r.expected with
    | none => simp
    | some d =>
        dsimp only
        split
        · next heq => simp [heq]
        · next hne => simp [hne]
  have hcurrent : findings = [] →
      ((∃ s, currency = some s ∧ s.clean = true) ↔ Current lib r doc) := by
    rintro rfl
    simp only [currencyOf, List.isEmpty_nil, if_true, Except.bind_eq_ok, Except.pure_eq_ok]
      at hcurrency
    obtain ⟨s, hs, rfl⟩ := hcurrency
    rw [← supersession_clean rfl rfl hs]
    simp
  constructor
  · rintro ⟨hd, rfl, hexpiry, hs, hpointers, hgit, hquotes⟩
    exact ⟨⟨hdigest.mp hd, hfindings, hexpiry, (hcurrent rfl).mp hs, hpointers,
      fun con hcon => quote_clean.mp (hquotes con hcon)⟩, hgit⟩
  · rintro ⟨⟨hd, hvalid, hexpiry, hs, hpointers, hquotes⟩, hgit⟩
    obtain rfl := Except.ok.inj (hfindings.symm.trans hvalid)
    exact ⟨hdigest.mpr hd, rfl, hexpiry, (hcurrent rfl).mpr hs, hpointers, hgit,
      fun con hcon => quote_clean.mpr (hquotes con hcon)⟩

end

/-- A clean strict report is positive evidence. -/
def StrictSound (lib : Stdlib) (r : Receiver) : Prop :=
  ∀ report, checkRecord lib r true = .ok report → isClean report = true →
    ∃ doc, load lib r.raw = .ok doc ∧ RecordEvidence lib r doc ∧ CheckoutEvidence lib r doc

/-- A clean strict report is positive evidence exactly where, of a record that has its evidence and
a checkout that is accepted, nothing was left unseen. -/
theorem strict_sound_iff (lib : Stdlib) (r : Receiver) :
    StrictSound lib r ↔ ∀ doc report, load lib r.raw = .ok doc →
      checkRecord lib r true = .ok report → RecordEvidence lib r doc → Accepted lib r doc →
      Seen lib r doc := by
  constructor
  · intro hsound doc report hdoc hreport hrecord haccepted
    obtain ⟨doc', hdoc', hclean⟩ := checkRecord_clean hreport
    obtain rfl := Except.ok.inj (hdoc'.symm.trans hdoc)
    obtain ⟨doc, hload, -, hcheckout⟩ := hsound report hreport (hclean.mpr ⟨hrecord, haccepted⟩)
    obtain rfl := Except.ok.inj (hload.symm.trans hdoc)
    exact hcheckout.seen
  · intro hseen report hreport hclean
    obtain ⟨doc, hdoc, hiff⟩ := checkRecord_clean hreport
    obtain ⟨hrecord, haccepted⟩ := hiff.mp hclean
    exact ⟨doc, hdoc, hrecord,
      haccepted.evidence (hseen doc report hdoc hreport hrecord haccepted)⟩

/-! ### A dirty tree nobody looked at -/

/-- Categories of ASCII characters, and the hashes of the canonical bytes of the record below and of
the file it points to. -/
def checkLib : Stdlib where
  sha256 raw :=
    if raw.size = 794 then "f6b93bb5d115d49b5923ecc06638aa02a26f5ec68372d0f047cbd014a1eb8175"
    else if raw.size = 5 then "9f56e761d79bfdb34304a012586cb04d16b435ef6130091a97702e559260a2f2"
    else ""
  nfkc := id
  nfc := id
  casefold s := String.ofList (s.toList.map Char.toLower)
  category c :=
    if c.isUpper then "Lu" else if c.isLower then "Ll" else if c.isDigit then "Nd"
    else if c.toNat < 32 then "Cc" else if c = ' ' then "Zs" else "Po"
  jsonOther _ := .error .unicodeDecodeError
  errorText _ := ""
  repr _ := ""
  schemaMessage _ _ _ := ""
  floatIsInteger _ := false
  floatCompare _ _ := none
  fnmatchcase name pattern := name == pattern

/-- A record of a dirty tree, without a sidecar of its changed paths. -/
def dirtyRecord : Json := .obj
  [("ahr", .str "1.0-rc.2"), ("as_of", .obj [("at", .str "2025-01-01T00:00:00Z"),
      ("base_ref", .obj [("commit", .str "cccccccccccccccccccccccccccccccccccccccc"),
        ("tree_state", .str "dirty")])]),
    ("claims", .arr [.obj [("id", .str "c-1"), ("label", .str "unknown"),
      ("text", .str "parser fails")]]),
    ("created_at", .str "2025-01-01T00:00:00Z"),
    ("from", .obj [("id", .str "alice"), ("kind", .str "agent")]), ("handoff_id", .str "h-1"),
    ("next_actions", .arr [.obj [("action", .str "edit parser"), ("done_when", .str "merged"),
      ("id", .str "a-1")]]),
    ("next_read", .arr [.obj [
      ("digest",
        .str "sha256:9f56e761d79bfdb34304a012586cb04d16b435ef6130091a97702e559260a2f2"),
      ("uri", .str "file:parser.py"), ("why", .str "entry point")]]),
    ("not_done", .arr [.str "review"]),
    ("objective", .obj [("done_when", .arr [.str "tests pass"]),
      ("goal", .str "fix the parser")]),
    ("risks", .arr [.obj [("id", .str "r-1"), ("severity", .str "low"),
      ("text", .str "regression")]]),
    ("subject", .str "s-1"), ("tier", .str "minimal"), ("tier_reason", .str "small change"),
    ("to", .obj [("id", .str "bob"), ("kind", .str "agent")]), ("type", .str "handoff"),
    ("unknowns", .arr [.str "scope"])]

/-- The tree is dirty still, with other changes. -/
def dirtyReceiver : Receiver where
  raw := some (String.ofList (render dirtyRecord)).toUTF8
  path := "/r/.trw/handoffs/h-1.json"
  found := []
  tree := {
    resolve := fun rest => some ("/r/" ++ rest)
    inside := fun _ => true
    present := fun path => path == "/r/parser.py"
    read := fun path => if path == "/r/parser.py" then some "pass\n".toUTF8 else none
    decodeReplace := fun _ => "" }
  expected := some "sha256:f6b93bb5d115d49b5923ecc06638aa02a26f5ec68372d0f047cbd014a1eb8175"
  now := 0
  inGit := true
  git := ⟨some "cccccccccccccccccccccccccccccccccccccccc", "dirty", ["other.py"], none⟩
  commitsSince := fun _ => some 0

/-- What the checks read of the record. -/
structure DirtyReads : Prop where
  safe : dirtyRecord.isSafe
  length : ((render dirtyRecord).flatMap String.utf8EncodeChar).length = 794
  canon : dirtyRecord.canon = dirtyRecord
  without : withoutIntegrity dirtyRecord = dirtyRecord
  expires : dirtyRecord.get? "expires_at" = none
  sourced : sourced dirtyRecord = []
  changed : (baseRef dirtyRecord).bind (·.get? "changed_paths") = none
  pointers : ((nextRead dirtyRecord).mapM
    (pointerCheck checkLib dirtyReceiver.tree)).toOption.any (·.all (·.clean true)) = true
  git : (gitSection checkLib dirtyReceiver dirtyRecord).status = .matched

theorem dirtyRecord_reads : DirtyReads where
  safe := by decide
  length := by decide +kernel
  canon := by decide
  without := by decide
  expires := by decide
  sourced := by decide
  changed := by decide
  pointers := by decide
  git := by decide

theorem dirtyRecord_size : (String.ofList (render dirtyRecord)).toUTF8.size = 794 := by
  have reads := dirtyRecord_reads
  have hbytes (l : List Char) :
      (String.ofList l).toUTF8 = (l.flatMap String.utf8EncodeChar).toByteArray := rfl
  rw [hbytes, List.size_toByteArray, reads.length]

theorem dirtyRecord_loads : load checkLib dirtyReceiver.raw = .ok dirtyRecord := by
  have reads := dirtyRecord_reads
  have hloads : load checkLib dirtyReceiver.raw =
      loads checkLib (String.ofList (render dirtyRecord)).toUTF8 := rfl
  have hsize : (String.ofList (render dirtyRecord)).toUTF8.size ≤ maxInputBytes := by
    rw [dirtyRecord_size]
    exact of_decide_eq_true rfl
  rw [hloads, loads_jcs checkLib reads.safe rfl hsize, reads.canon]

theorem dirtyRecord_valid : validate checkLib dirtyRecord none = .ok [] := by
  have reads := dirtyRecord_reads
  unfold validate validateWith l1Findings
  rw [jcs_eq reads.safe]
  dsimp only
  rw [dirtyRecord_size]
  exact Except.ok_of_toOption (by decide +kernel)

theorem dirtyRecord_digest : digest checkLib dirtyRecord =
    .ok "sha256:f6b93bb5d115d49b5923ecc06638aa02a26f5ec68372d0f047cbd014a1eb8175" := by
  have reads := dirtyRecord_reads
  have hsha : ∀ raw : ByteArray, raw.size = 794 → checkLib.sha256 raw =
      "f6b93bb5d115d49b5923ecc06638aa02a26f5ec68372d0f047cbd014a1eb8175" := fun raw h => if_pos h
  rw [digest, reads.without, jcs_eq reads.safe, Except.bind_eq_ok]
  exact ⟨_, rfl, by rw [hsha _ dirtyRecord_size]; rfl⟩

theorem dirtyRecord_evidence : RecordEvidence checkLib dirtyReceiver dirtyRecord where
  digest := ⟨_, dirtyRecord_digest, rfl⟩
  valid := dirtyRecord_valid
  unexpired raw h := by
    have reads := dirtyRecord_reads
    rw [reads.expires] at h
    cases h
  current := ⟨[("h-1", dirtyRecord, "/r/.trw/handoffs/h-1.json")], "h-1", [], rfl, rfl, rfl,
    nofun, nofun, List.length_filter_le _ _⟩
  pointers := by
    have reads := dirtyRecord_reads
    obtain ⟨statuses, hstatuses, hclean⟩ := (Option.any_eq_true _ _).mp reads.pointers
    exact (pointers_clean (Except.ok_of_toOption hstatuses)).mp (List.all_eq_true.mp hclean)
  constraints := by
    have reads := dirtyRecord_reads
    rw [reads.sourced]
    nofun

/-- The report is clean, and the changed paths of the two dirty trees were never compared. -/
theorem strict_accepts_unread : ¬ StrictSound checkLib dirtyReceiver := by
  have reads := dirtyRecord_reads
  have hcurrency : ∃ s, supersession checkLib dirtyRecord dirtyReceiver.path
      (handoffFiles dirtyReceiver.found) dirtyReceiver.now = .ok s := by
    simp only [supersession, Except.bind_eq_ok, dirtyRecord_digest]
    exact ⟨_, ([("h-1", dirtyRecord, "/r/.trw/handoffs/h-1.json")], []), rfl, "h-1", rfl, _, rfl,
      [], rfl, [], rfl, [], rfl, rfl⟩
  obtain ⟨s, hs⟩ := hcurrency
  have hpointers : ∃ statuses, (nextRead dirtyRecord).mapM
      (pointerCheck checkLib dirtyReceiver.tree) = .ok statuses := by
    obtain ⟨statuses, hstatuses, -⟩ := (Option.any_eq_true _ _).mp reads.pointers
    exact ⟨statuses, Except.ok_of_toOption hstatuses⟩
  obtain ⟨statuses, hstatuses⟩ := hpointers
  have hreport : ∃ report, checkRecord checkLib dirtyReceiver true = .ok report := by
    simp only [checkRecord, Except.bind_eq_ok, Except.pure_eq_ok, Except.throw_ne_ok, ite_eq_iff,
      false_and, and_false, exists_false, false_or]
    exact ⟨_, dirtyRecord, dirtyRecord_loads, by decide, [], dirtyRecord_valid, some s,
      Except.bind_eq_ok.mpr ⟨s, hs, rfl⟩, _, dirtyRecord_digest, statuses, hstatuses, rfl⟩
  obtain ⟨report, hcheck⟩ := hreport
  intro hsound
  obtain ⟨doc, hdoc, hiff⟩ := checkRecord_clean hcheck
  obtain rfl := Except.ok.inj (hdoc.symm.trans dirtyRecord_loads)
  obtain ⟨doc, hload, -, -, ref, href, -, -, -, hdirty⟩ :=
    hsound report hcheck (hiff.mpr ⟨dirtyRecord_evidence, gitSection_matched.mp reads.git⟩)
  obtain rfl := Except.ok.inj (hload.symm.trans hdoc)
  obtain ⟨recorded, hread, -⟩ := hdirty rfl
  have hnone := reads.changed
  rw [href, Option.bind_some] at hnone
  rw [recordedChanged, hnone] at hread
  cases hread

end TrwMcp.Handoff.Check
