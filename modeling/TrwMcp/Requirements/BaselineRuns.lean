import TrwMcp.Requirements.Baseline

/-!
# An approved baseline is kept

Later commits only add to what the stream of names says of the earlier ones, in front of it, so the
versions of a longer history begin with those of the shorter one, and so does what entered the
approved family.
-/

set_option linter.unusedSectionVars false

namespace TrwMcp.Requirements

open Lib Handoff

/-! ## The stream of names -/

section

variable {hit : List Char → Bool}

theorem note_note {sha date : List Char} (hsha : sha ≠ []) (a b : Bool)
    (touched : List (List Char × List Char)) :
    note b sha date (note a sha date touched) = note (a || b) sha date touched := by
  have hne : sha.isEmpty = false := by cases sha with
    | nil => exact absurd rfl hsha
    | cons => rfl
  by_cases hlast : touched.getLast?.map (·.1) = some sha
  · cases a <;> cases b <;> simp [note, hlast]
  · cases a <;> cases b <;> simp [note, hlast, hne]

theorem scan_change {kind : Char} (hkind : kind ∉ ['\n', '\x01', 'R', 'C']) (token path : List Char)
    (htoken : token.dropWhile (· = '\n') = [kind]) (rest : List (List Char))
    (sha date : List Char) (touched : List (List Char × List Char)) :
    scan hit (token :: path :: rest) sha date touched =
      scan hit rest sha date (note (hit path) sha date touched) := by
  simp only [List.mem_cons, List.not_mem_nil, or_false, not_or] at hkind
  rw [scan.eq_def]
  dsimp only
  rw [htoken]
  dsimp only
  rw [if_neg hkind.2.1, if_neg (by simp [hkind.2.2.1, hkind.2.2.2])]

theorem scan_changes {changes : List Change}
    (hkinds : ∀ change ∈ changes, change.kind ∉ ['\n', '\x01', 'R', 'C'])
    (rest : List (List Char)) {sha : List Char} (hsha : sha ≠ []) (date : List Char)
    (touched : List (List Char × List Char)) :
    scan hit ((changes.flatMap fun change => [[change.kind], change.path]) ++ rest) sha date
        touched =
      scan hit rest sha date
        (note (changes.any fun change => hit change.path) sha date touched) := by
  induction changes generalizing touched with
  | nil => simp [note]
  | cons change changes ih =>
      have hkind := hkinds change (List.mem_cons_self ..)
      have htoken : [change.kind].dropWhile (· = '\n') = [change.kind] := by
        simp only [List.mem_cons, List.not_mem_nil, or_false, not_or] at hkind
        simp [hkind.1]
      rw [List.flatMap_cons, List.append_assoc]
      rw [List.cons_append, List.cons_append, List.nil_append,
        scan_change hkind [change.kind] change.path htoken,
        ih fun c hc => hkinds c (List.mem_cons_of_mem _ hc), note_note hsha, List.any_cons]

theorem scan_commit (commit : Commit) {listed : List Change}
    (hlisted : ∀ change ∈ listed, change ∈ commit.changes) (rest : List (List Char))
    (sha date : List Char) (touched : List (List Char × List Char)) :
    scan hit (commit.tokens listed ++ rest) sha date touched =
      scan hit rest commit.sha commit.date
        (note (listed.any fun change => hit change.path) commit.sha commit.date touched) := by
  have hhead : ∀ c : Char, c ∈ commit.sha → decide (c ≠ '\t') = true := by
    rintro c hc
    refine decide_eq_true ?_
    rintro rfl
    exact commit.sha_tab hc
  have htake : (commit.sha ++ '\t' :: commit.date).takeWhile (· ≠ '\t') = commit.sha := by
    rw [List.takeWhile_append_of_pos hhead, List.takeWhile_cons_of_neg (by simp), List.append_nil]
  have hdrop : ((commit.sha ++ '\t' :: commit.date).dropWhile (· ≠ '\t')).drop 1 = commit.date := by
    rw [List.dropWhile_append_of_pos hhead, List.dropWhile_cons_of_neg (by simp)]
    rfl
  have hmark : scan hit (commit.tokens listed ++ rest) sha date touched =
      scan hit ((commit.tokens listed).tail ++ rest) commit.sha commit.date touched := by
    unfold Commit.tokens
    rw [List.cons_append, List.tail_cons, scan.eq_def]
    dsimp only
    rw [List.cons_append, List.dropWhile_cons_of_neg (by decide)]
    dsimp only
    rw [if_pos rfl, htake, hdrop]
  rw [hmark]
  cases listed with
  | nil => simp [Commit.tokens, note]
  | cons change listed =>
      have hkind := commit.kinds change (hlisted change (List.mem_cons_self ..))
      have htoken : ['\n', change.kind].dropWhile (· = '\n') = [change.kind] := by
        simp only [List.mem_cons, List.not_mem_nil, or_false, not_or] at hkind
        simp [hkind.1]
      unfold Commit.tokens
      rw [List.tail_cons, List.cons_append, List.cons_append,
        scan_change hkind _ change.path htoken, scan_changes _ rest commit.sha_ne,
        note_note commit.sha_ne, List.any_cons]
      exact fun c hc => commit.kinds c (hlisted c (List.mem_cons_of_mem _ hc))

/-- The commit names a path of the PRD. -/
def Commit.touches (commit : Commit) (pathspec hit : List Char → Bool) : Bool :=
  (commit.changes.filter fun change => pathspec change.path).any fun change => hit change.path

theorem scan_gitLog {pathspec : List Char → Bool} {line : List Commit}
    (hshas : (line.map (·.sha)).Nodup) :
    scan hit (gitLog pathspec line) [] [] [] =
      (line.reverse.filter fun commit => commit.touches pathspec hit).map fun commit =>
        (commit.sha, commit.date) := by
  have hscan : ∀ (commits : List Commit), (commits.map (·.sha)).Nodup →
      ∀ (sha date : List Char) (touched : List (List Char × List Char)),
      (∀ commit ∈ commits, ∀ m ∈ touched, m.1 ≠ commit.sha) →
      scan hit ((commits.flatMap fun commit =>
          let listed := commit.changes.filter fun change => pathspec change.path
          if listed.isEmpty then [] else commit.tokens listed) ++ [[]]) sha date touched =
        touched ++ (commits.filter fun commit => commit.touches pathspec hit).map fun commit =>
          (commit.sha, commit.date) := by
    intro commits hnodup
    induction commits with
    | nil =>
        intro sha date touched _
        rw [List.flatMap_nil, List.nil_append, scan.eq_def]
        dsimp only [List.dropWhile_nil]
        rw [scan.eq_def]
        simp
    | cons commit commits ih =>
        intro sha date touched hnew
        have hnodup' := List.nodup_cons.mp hnodup
        have hrest : ∀ c ∈ commits, ∀ m ∈ touched, m.1 ≠ c.sha := fun c hc =>
          hnew c (List.mem_cons_of_mem _ hc)
        rw [List.flatMap_cons, List.append_assoc]
        dsimp only
        split
        · next hempty =>
            have htouches : commit.touches pathspec hit = false := by
              rw [Commit.touches, List.isEmpty_iff.mp hempty]
              rfl
            rw [List.nil_append, ih hnodup'.2 sha date touched hrest,
              List.filter_cons_of_neg (by rw [htouches]; decide)]
        · rw [scan_commit commit fun c hc => List.mem_of_mem_filter hc]
          have hlast : touched.getLast?.map (·.1) ≠ some commit.sha := by
            intro hsome
            obtain ⟨m, hm, heq⟩ := Option.map_eq_some_iff.mp hsome
            exact hnew commit (List.mem_cons_self ..) m (List.mem_of_getLast? hm) heq
          have hne : commit.sha.isEmpty = false := by
            cases hsha : commit.sha with
            | nil => exact absurd hsha commit.sha_ne
            | cons => rfl
          change scan hit _ commit.sha commit.date
            (note (commit.touches pathspec hit) commit.sha commit.date touched) = _
          cases htouches : commit.touches pathspec hit with
          | false =>
              rw [show note false commit.sha commit.date touched = touched by simp [note],
                ih hnodup'.2 _ _ _ hrest, List.filter_cons_of_neg (by rw [htouches]; decide)]
          | true =>
              have hnote : note true commit.sha commit.date touched =
                  touched ++ [(commit.sha, commit.date)] := by
                simp [note, hlast, hne]
              rw [hnote, ih hnodup'.2, List.filter_cons, if_pos htouches, List.map_cons,
                List.append_assoc, List.singleton_append]
              intro c hc m hm
              rcases List.mem_append.mp hm with hm | hm
              · exact hrest c hc m hm
              · obtain rfl := List.mem_singleton.mp hm
                intro heq
                have heq : commit.sha = c.sha := heq
                exact hnodup'.1 (List.mem_map.mpr ⟨c, hc, heq.symm⟩)
  have hreverse : (line.reverse.map (·.sha)).Nodup := by
    rw [List.map_reverse]
    exact List.nodup_reverse.mpr hshas
  exact hscan line.reverse hreverse [] [] [] fun _ _ _ hm => absurd hm List.not_mem_nil

end

/-! ## The versions -/

section

variable {readers : Readers} {prdId : List Char}

/-- The commits that touched a file of the PRD in the directory, newest first. -/
def touchedOf (readers : Readers) (prdId : List Char) (line : List Commit) (dir : List Char) :
    List (List Char × List Char) :=
  (line.reverse.filter fun commit => commit.touches (readers.pathspec dir prdId) fun path =>
    boundary readers.isDecimal prdId (basename path)).map fun commit => (commit.sha, commit.date)

/-- What one of them adds to the history. -/
def piece (readers : Readers) (prdId : List Char) (line : List Commit) (dir : List Char)
    (m : List Char × List Char) : Option (List (List Char × List Char × List Char)) :=
  match treeMatches readers.isDecimal prdId
    (((line.find? fun commit => commit.sha = m.1).map (·.entries dir)).getD []) with
  | [] => some []
  | [path] => some [(m.1, m.2, path)]
  | _ => none

theorem mapM_congr {α β : Type} {f g : α → Option β} {xs : List α} (h : ∀ x ∈ xs, f x = g x) :
    xs.mapM f = xs.mapM g := by
  induction xs with
  | nil => rfl
  | cons x xs ih =>
      rw [List.mapM_cons, List.mapM_cons, h x (List.mem_cons_self ..),
        ih fun y hy => h y (List.mem_cons_of_mem _ hy)]

theorem mem_of_mapM {α β : Type} {f : α → Option β} {xs : List α} {ys : List β}
    (h : xs.mapM f = some ys) {y : β} (hy : y ∈ ys) : ∃ x ∈ xs, f x = some y := by
  induction xs generalizing ys with
  | nil =>
      obtain rfl : [] = ys := Option.some.inj h
      cases hy
  | cons x xs ih =>
      rw [List.mapM_cons] at h
      cases hx : f x with
      | none =>
          rw [hx] at h
          cases h
      | some z =>
          cases hxs : xs.mapM f with
          | none =>
              rw [hx, hxs] at h
              cases h
          | some zs =>
              rw [hx, hxs] at h
              obtain rfl : z :: zs = ys := Option.some.inj h
              rcases List.mem_cons.mp hy with rfl | hy
              · exact ⟨x, List.mem_cons_self .., hx⟩
              · obtain ⟨x', hx', hf⟩ := ih hxs hy
                exact ⟨x', List.mem_cons_of_mem _ hx', hf⟩

theorem foldlM_append {α β : Type} (f : α → Option (List β)) (step : List β → α → Option (List β))
    (hstep : ∀ acc m, step acc m = (f m).map (acc ++ ·)) (ms : List α) (acc : List β) :
    ms.foldlM step acc = (ms.mapM f).map fun pieces => acc ++ pieces.flatten := by
  induction ms generalizing acc with
  | nil => simp
  | cons m ms ih =>
      rw [List.foldlM_cons, List.mapM_cons, hstep]
      cases f m with
      | none => rfl
      | some piece =>
          simp only [Option.map_some, Option.bind_eq_bind, Option.bind_some, ih]
          cases ms.mapM f <;> simp

theorem history_eq {line : List Commit} (hshas : (line.map (·.sha)).Nodup) (dir : List Char) :
    history readers prdId line dir =
      ((touchedOf readers prdId line dir).mapM (piece readers prdId line dir)).map
        List.flatten := by
  rw [history]
  dsimp only
  rw [scan_gitLog hshas]
  refine (foldlM_append (piece readers prdId line dir) _ (fun acc m => ?_) _ []).trans ?_
  · unfold piece
    split <;> simp_all
  · simp [touchedOf]

theorem find_longer {line : List Commit} (later : List Commit) {m : List Char × List Char}
    {dir : List Char} (hm : m ∈ touchedOf readers prdId line dir) :
    ((line ++ later).find? fun commit => commit.sha = m.1) =
      line.find? fun commit => commit.sha = m.1 := by
  obtain ⟨commit, hcommit, rfl⟩ := List.mem_map.mp hm
  have hmem : commit ∈ line := List.mem_reverse.mp (List.mem_of_mem_filter hcommit)
  have hsome : (line.find? fun c => decide (c.sha = commit.sha)).isSome = true := by
    rw [List.find?_isSome]
    exact ⟨commit, hmem, decide_eq_true rfl⟩
  rw [List.find?_append]
  exact Option.or_of_isSome hsome

theorem touchedOf_append (readers : Readers) (prdId : List Char) (line later : List Commit)
    (dir : List Char) :
    ∃ new, touchedOf readers prdId (line ++ later) dir =
      new ++ touchedOf readers prdId line dir := by
  unfold touchedOf
  rw [List.reverse_append, List.filter_append, List.map_append]
  exact ⟨_, rfl⟩

theorem history_append {line later : List Commit}
    (hshas : ((line ++ later).map (·.sha)).Nodup) {dir : List Char}
    {commits commits' : List (List Char × List Char × List Char)}
    (h : history readers prdId line dir = some commits)
    (h' : history readers prdId (line ++ later) dir = some commits') :
    ∃ new, commits' = new ++ commits := by
  have hline : (line.map (·.sha)).Nodup := by
    rw [List.map_append] at hshas
    exact (List.nodup_append.mp hshas).1
  rw [history_eq hline] at h
  rw [history_eq hshas] at h'
  obtain ⟨new, hnew⟩ := touchedOf_append readers prdId line later dir
  have hsame : (touchedOf readers prdId line dir).mapM (piece readers prdId (line ++ later) dir) =
      (touchedOf readers prdId line dir).mapM (piece readers prdId line dir) := by
    refine mapM_congr fun m hm => ?_
    unfold piece
    rw [find_longer later hm]
  rw [hnew, List.mapM_append, hsame] at h'
  obtain ⟨old, hold, rfl⟩ := Option.map_eq_some_iff.mp h
  rw [hold] at h'
  cases hadded : new.mapM (piece readers prdId (line ++ later) dir) with
  | none =>
      rw [hadded] at h'
      cases h'
  | some added =>
      rw [hadded] at h'
      obtain rfl : (added ++ old).flatten = commits' := Option.some.inj h'
      exact ⟨added.flatten, List.flatten_append ..⟩

theorem find_history {line : List Commit} (hshas : (line.map (·.sha)).Nodup)
    (later : List Commit) {dir : List Char}
    {commits : List (List Char × List Char × List Char)}
    (h : history readers prdId line dir = some commits) {m : List Char × List Char × List Char}
    (hm : m ∈ commits) :
    ((line ++ later).find? fun commit => commit.sha = m.1) =
      line.find? fun commit => commit.sha = m.1 := by
  rw [history_eq hshas] at h
  obtain ⟨pieces, hpieces, rfl⟩ := Option.map_eq_some_iff.mp h
  obtain ⟨part, hpart, hmem⟩ := List.mem_flatten.mp hm
  obtain ⟨t, ht, hpiece⟩ := mem_of_mapM hpieces hpart
  have hsha : m.1 = t.1 := by
    unfold piece at hpiece
    split at hpiece
    · obtain rfl := Option.some.inj hpiece
      cases hmem
    · obtain rfl := Option.some.inj hpiece
      obtain rfl := List.mem_singleton.mp hmem
      rfl
    · cases hpiece
  rw [hsha]
  exact find_longer later ht

theorem versions_append {line later : List Commit}
    (hshas : ((line ++ later).map (·.sha)).Nodup) {dir : List Char}
    {commits commits' : List (List Char × List Char × List Char)}
    {versions versions' : List Version}
    (h : history readers prdId line dir = some commits)
    (h' : history readers prdId (line ++ later) dir = some commits')
    (hread : commits.reverse.mapM (readVersion readers line) = some versions)
    (hread' : commits'.reverse.mapM (readVersion readers (line ++ later)) = some versions') :
    ∃ new, versions' = versions ++ new := by
  have hline : (line.map (·.sha)).Nodup := by
    rw [List.map_append] at hshas
    exact (List.nodup_append.mp hshas).1
  obtain ⟨new, rfl⟩ := history_append hshas h h'
  have hsame : commits.reverse.mapM (readVersion readers (line ++ later)) =
      commits.reverse.mapM (readVersion readers line) := by
    refine mapM_congr fun m hm => ?_
    unfold readVersion
    rw [find_history hline later h (List.mem_reverse.mp hm)]
  rw [List.reverse_append, List.mapM_append, hsame, hread] at hread'
  cases hadded : new.reverse.mapM (readVersion readers (line ++ later)) with
  | none =>
      rw [hadded] at hread'
      cases hread'
  | some added =>
      rw [hadded] at hread'
      obtain rfl : versions ++ added = versions' := Option.some.inj hread'
      exact ⟨added, rfl⟩

theorem approvalsOf_append (before : Bool) (versions later : List Version) :
    ∃ before', approvalsOf before (versions ++ later) =
      approvalsOf before versions ++ approvalsOf before' later := by
  induction versions generalizing before with
  | nil => exact ⟨before, rfl⟩
  | cons version versions ih =>
      obtain ⟨before', h⟩ := ih (isApproved version.status)
      refine ⟨before', ?_⟩
      rw [List.cons_append, approvalsOf, approvalsOf, h, List.append_assoc]

theorem resolve_cases (readers : Readers) (prdId : List Char) (w : Checkout) :
    (resolveRequirementBaseline readers prdId w).status = .baselineUnresolvable ∨
    ∃ commits versions, history readers prdId w.line w.dir = some commits ∧
      commits.reverse.mapM (readVersion readers w.line) = some versions ∧
      ((approvalsOf false versions = [] ∧
          (resolveRequirementBaseline readers prdId w).status = .notApplicable) ∨
        ∃ version rest, approvalsOf false versions = version :: rest ∧
          (resolveRequirementBaseline readers prdId w).status = .resolved ∧
          (resolveRequirementBaseline readers prdId w).baseline = some version ∧
          (resolveRequirementBaseline readers prdId w).requirements =
            (requirementsOf readers prdId version.frontmatter version.text).2) := by
  unfold resolveRequirementBaseline
  split
  · exact .inl rfl
  · split
    · exact .inl rfl
    · split
      · exact .inl rfl
      · next commits hcommits =>
          split
          · exact .inl rfl
          · split
            · exact .inl rfl
            · next versions hversions =>
                split
                · next hnone =>
                    split
                    · exact .inl rfl
                    · exact .inr ⟨commits, versions, hcommits, hversions, .inl ⟨hnone, rfl⟩⟩
                · next version rest hsome =>
                    exact .inr ⟨commits, versions, hcommits, hversions,
                      .inr ⟨version, rest, hsome, rfl, rfl, rfl⟩⟩

theorem resolve_prdId (readers : Readers) (prdId : List Char) (w : Checkout) :
    (resolveRequirementBaseline readers prdId w).prdId = prdId := by
  unfold resolveRequirementBaseline
  repeat' (first | rfl | split)

end

/-! ## Drift -/

/-- The criteria, the artifact and the call chain are the same. -/
structure BaselineRequirement.Same (base now : BaselineRequirement) : Prop where
  criteria : base.acceptanceCriteria.map strip = now.acceptanceCriteria.map strip
  artifact : strip base.evidenceArtifact = strip now.evidenceArtifact
  chain : base.callChain = now.callChain

theorem same_of_changedFields {base now : BaselineRequirement} (h : changedFields base now = []) :
    base.Same now := by
  unfold changedFields at h
  obtain ⟨hrest, hchain⟩ := List.append_eq_nil_iff.mp h
  obtain ⟨hcriteria, hartifact⟩ := List.append_eq_nil_iff.mp hrest
  refine ⟨?_, ?_, ?_⟩
  · by_contra hne
    rw [if_pos hne] at hcriteria
    cases hcriteria
  · by_contra hne
    rw [if_pos hne] at hartifact
    cases hartifact
  · by_contra hne
    rw [if_pos hne] at hchain
    cases hchain

theorem byId_go {side : String} (requirements : List BaselineRequirement)
    (seen : Dict String BaselineRequirement) (all : List BaselineRequirement)
    (hseen : ∀ k req, Dict.lookup seen k = some req → req ∈ all ∧ req.requirementId = k)
    (hsub : requirements ⊆ all) :
    (∃ e, requirements.foldlM (fun seen req =>
        if (Dict.lookup seen req.requirementId).isSome then
          Except.error (side ++ " maps " ++ req.requirementId ++ " more than once")
        else .ok (Dict.set seen req.requirementId req)) seen = .error e ∧
        ¬ ((requirements.map (·.requirementId)).Nodup ∧
          ∀ req ∈ requirements, Dict.lookup seen req.requirementId = none)) ∨
      ∃ index, requirements.foldlM (fun seen req =>
        if (Dict.lookup seen req.requirementId).isSome then
          Except.error (side ++ " maps " ++ req.requirementId ++ " more than once")
        else .ok (Dict.set seen req.requirementId req)) seen = .ok index ∧
        ∀ k req, Dict.lookup index k = some req → req ∈ all ∧ req.requirementId = k := by
  induction requirements generalizing seen with
  | nil => exact .inr ⟨seen, rfl, hseen⟩
  | cons req requirements ih =>
      rw [List.foldlM_cons]
      by_cases hrepeated : (Dict.lookup seen req.requirementId).isSome = true
      · rw [if_pos hrepeated]
        refine .inl ⟨_, rfl, fun ⟨_, hnew⟩ => ?_⟩
        rw [hnew req (List.mem_cons_self ..)] at hrepeated
        cases hrepeated
      · rw [if_neg hrepeated]
        have hset : ∀ k r, Dict.lookup (Dict.set seen req.requirementId req) k = some r →
            r ∈ all ∧ r.requirementId = k := by
          intro k r hr
          by_cases hk : k = req.requirementId
          · subst hk
            rw [Dict.lookup_set_self] at hr
            obtain rfl := Option.some.inj hr
            exact ⟨hsub (List.mem_cons_self ..), rfl⟩
          · rw [Dict.lookup_set_ne _ hk] at hr
            exact hseen k r hr
        refine (ih _ hset fun r hr => hsub (List.mem_cons_of_mem _ hr)).imp_left ?_
        rintro ⟨e, he, hnot⟩
        refine ⟨e, he, fun ⟨hnodup, hnew⟩ => hnot ?_⟩
        obtain ⟨hfresh, hrest⟩ := List.nodup_cons.mp hnodup
        refine ⟨hrest, fun r hr => ?_⟩
        have hne : r.requirementId ≠ req.requirementId := fun heq =>
          hfresh (List.mem_map.mpr ⟨r, hr, heq⟩)
        rw [Dict.lookup_set_ne _ hne]
        exact hnew r (List.mem_cons_of_mem _ hr)

theorem byId_spec (side : String) (requirements : List BaselineRequirement) :
    (∃ e, byId side requirements = .error e ∧
        ¬ (requirements.map (·.requirementId)).Nodup) ∨
      ∃ index, byId side requirements = .ok index ∧ ∀ k req, Dict.lookup index k = some req →
        req ∈ requirements ∧ req.requirementId = k := by
  refine (byId_go requirements [] requirements (fun _ _ h => nomatch h) fun _ h => h).imp_left ?_
  rintro ⟨e, he, hnot⟩
  exact ⟨e, he, fun hnodup => hnot ⟨hnodup, fun _ _ => rfl⟩⟩

theorem drift_is_reported (readers : Readers) (exist : String → Bool) (wired : List String → Bool)
    (baseline : BaselineResolution) (text : String) (status : Option String) :
    (∃ e, detectRequirementDrift readers exist wired baseline text status = .error e ∧
      ¬ ((baseline.requirements.map (·.requirementId)).Nodup ∧
        ((requirementsFromText readers baseline.prdId text).map (·.requirementId)).Nodup)) ∨
    ∃ findings, detectRequirementDrift readers exist wired baseline text status = .ok findings ∧
      ∀ base ∈ baseline.requirements,
        (∀ now ∈ requirementsFromText readers baseline.prdId text,
          now.requirementId = base.requirementId → ¬ base.Same now) →
        ∃ finding ∈ findings, finding.requirementId = base.requirementId ∧
          (finding.kind = .changed ∨ finding.kind = .dropped) := by
  unfold detectRequirementDrift
  rcases byId_spec "baseline" baseline.requirements with ⟨e, he, hnot⟩ | ⟨_, hindex, -⟩
  · rw [he]
    exact .inl ⟨e, rfl, fun h => hnot h.1⟩
  · rw [hindex]
    rcases byId_spec "current text" (requirementsFromText readers baseline.prdId text) with
      ⟨e, he, hnot⟩ | ⟨current, hcurrent, hfound⟩
    · rw [he]
      exact .inl ⟨e, rfl, fun h => hnot h.2⟩
    · rw [hcurrent]
      refine .inr ⟨_, rfl, fun base hbase hchanged => ?_⟩
      cases hnow : Dict.lookup current base.requirementId with
      | none =>
          refine ⟨{ requirementId := base.requirementId, kind := .dropped },
            List.mem_flatMap.mpr ⟨base, hbase, List.mem_append_left _ ?_⟩, rfl, .inr rfl⟩
          rw [hnow]
          exact List.mem_singleton.mpr rfl
      | some now =>
          obtain ⟨hmem, hid⟩ := hfound _ now hnow
          refine ⟨{ requirementId := base.requirementId, kind := .changed
                    changedFields := changedFields base now },
            List.mem_flatMap.mpr ⟨base, hbase, List.mem_append_left _ ?_⟩, rfl, .inl rfl⟩
          rw [hnow]
          dsimp only
          rw [if_neg fun hnil => hchanged now hmem hid (same_of_changedFields hnil)]
          exact List.mem_singleton.mpr rfl

/-! ## Later histories -/

def approvedText : String := "---\nstatus: approved\n---\n"

def draftText : String := "---\nstatus: draft\n---\n"

def sampleReaders : Readers where
  parseFrontmatter text :=
    if text = approvedText then [("status", .str "approved")]
    else if text = draftText then [("status", .str "draft")] else []
  declaredChains _ := []
  str _ := ""
  isDecimal := Regex.isDigit
  pathspec dir prdId path := (dir ++ '/' :: prdId).isPrefixOf path

def samplePrd : List Char := "PRD-X-001".toList

/-- A commit whose tree has the PRD in one directory, with a text. -/
def sampleCommit (sha : Char) (hsha : '\t' ≠ sha) (changes : List Change)
    (hkinds : ∀ change ∈ changes, change.kind ∉ ['\n', '\x01', 'R', 'C']) (dir : List Char)
    (text : String) : Commit where
  sha := [sha]
  date := "2026-01-01".toList
  changes
  entries d := if d = dir then ["100644 blob 1\t".toList ++ dir ++ "/PRD-X-001.md".toList] else []
  blob _ := some text
  sha_ne := nofun
  sha_tab := by simpa using hsha
  kinds := hkinds

def approval : Commit :=
  sampleCommit 'a' (by decide) [⟨'A', "docs/PRD-X-001.md".toList⟩] (by decide) "docs".toList
    approvedText

/-- The file moves to another directory, with its text or as a draft. -/
def move (text : String) : Commit :=
  sampleCommit 'b' (by decide)
    [⟨'D', "docs/PRD-X-001.md".toList⟩, ⟨'A', "prds/PRD-X-001.md".toList⟩] (by decide)
    "prds".toList text

def approvedCheckout : Checkout where
  line := [approval]
  dir := "docs".toList
  files := ["PRD-X-001.md".toList]
  text := some approvedText

def movedCheckout (text : String) : Checkout where
  line := [approval] ++ [move text]
  dir := "prds".toList
  files := ["PRD-X-001.md".toList]
  text := some text

/-- A later edit in the same directory. -/
def edit : Commit :=
  sampleCommit 'b' (by decide) [⟨'M', "docs/PRD-X-001.md".toList⟩] (by decide) "docs".toList
    draftText

def editedCheckout : Checkout :=
  { approvedCheckout with line := approvedCheckout.line ++ [edit], text := some draftText }

end TrwMcp.Requirements
