import TrwMcp.Sync.Pull

/-!
# The cursors pass judged learnings only

What one page does to the cursor, and from it the invariant of the cycles, catch-ups and replays:
every learning of the server at or below a cursor was judged by a merge.
-/

namespace TrwMcp.Sync

open Lib
open Handoff (Json)

/-! ## Every learning of a page has a verdict -/

theorem flatten_chunks {fuel : Nat} {rows : List Row} (h : rows.length ≤ fuel) :
    (chunks fuel rows).flatten = rows := by
  induction fuel generalizing rows with
  | zero =>
      obtain rfl := List.length_eq_zero_iff.mp (Nat.le_zero.mp h)
      rfl
  | succ fuel ih =>
      unfold chunks
      split
      · next hempty => rw [List.isEmpty_iff.mp hempty]; rfl
      · next hrows =>
          have hpos : 0 < rows.length := by
            rw [List.length_pos_iff]
            simpa using hrows
          have hdrop : (rows.drop applyChunk).length ≤ fuel := by
            rw [List.length_drop]
            unfold applyChunk
            omega
          rw [List.flatten_cons, ih hdrop, List.take_append_drop]

theorem mem_applyBatched (answers : StoreAnswers) {groups : List (List Row)} {row : Row}
    (h : row ∈ groups.flatten) (i : Nat) :
    ∃ status, (row, status) ∈ applyBatched answers i groups := by
  induction groups generalizing i with
  | nil => cases h
  | cons chunk rest ih =>
      unfold applyBatched
      split
      · exact ⟨none, List.mem_map.mpr ⟨row, h, rfl⟩⟩
      · next statuses _ =>
          split
          · next hlen =>
              rw [List.flatten_cons, List.mem_append] at h
              rcases h with hchunk | hrest
              · obtain ⟨n, hn, rfl⟩ := List.getElem_of_mem hchunk
                have hzip : (chunk[n], statuses[n]) ∈ chunk.zip statuses := by
                  rw [← List.getElem_zip (h := by rw [List.length_zip]; omega)]
                  exact List.getElem_mem _
                exact ⟨some statuses[n], List.mem_append_left _
                  (List.mem_map.mpr ⟨(chunk[n], statuses[n]), hzip, rfl⟩)⟩
              · obtain ⟨status, hstatus⟩ := ih hrest (i + 1)
                exact ⟨status, List.mem_append_right _ hstatus⟩
          · exact ⟨none, List.mem_map.mpr ⟨row, h, rfl⟩⟩

theorem planRow_learning {answers : StoreAnswers} {raw : Learning} {row : Row}
    (h : planRow answers raw = .inr row) : row.learning = raw := by
  unfold planRow at h
  split at h
  · cases h
  · split at h
    · cases h
    · cases h
    · cases h
      rfl

theorem mem_mergePage (answers : StoreAnswers) {learnings : List Learning} {raw : Learning}
    (h : raw ∈ learnings) : ∃ v, (raw, v) ∈ mergePage answers learnings := by
  unfold mergePage
  cases hplan : planRow answers raw with
  | inl v =>
      refine ⟨v, List.mem_append_left _ (List.mem_filterMap.mpr ⟨raw, h, ?_⟩)⟩
      rw [hplan]
      rfl
  | inr row =>
      have hrow : row ∈ learnings.filterMap fun raw => (planRow answers raw).getRight? :=
        List.mem_filterMap.mpr ⟨raw, h, by rw [hplan]; rfl⟩
      generalize learnings.filterMap (fun raw => (planRow answers raw).getRight?) = rows at hrow ⊢
      have hflat : row ∈ (chunks rows.length rows).flatten := by
        rw [flatten_chunks (Nat.le_refl _)]
        exact hrow
      obtain ⟨status, hstatus⟩ := mem_applyBatched answers hflat 0
      refine ⟨rowVerdict answers row status, List.mem_append_right _
        (List.mem_map.mpr ⟨(row, status), hstatus, ?_⟩)⟩
      dsimp only
      rw [planRow_learning hplan]

theorem TeamMergeResult.ne_failed {r : TeamMergeResult} (h : r.count .failed = 0)
    {raw : Learning} {v : Verdict} (hv : (raw, v) ∈ r.verdicts) : v ≠ .failed := by
  rintro rfl
  unfold TeamMergeResult.count at h
  rw [List.length_eq_zero_iff, List.filter_eq_nil_iff] at h
  exact h _ hv (by simp)

/-- The learnings an attempt offered to a merge that ran, and that did not fail there. -/
def judgedBy (config : Config) (a : Attempt) : List Learning :=
  match a.response with
  | .page p =>
      ((mergeOf config a.answers p).verdicts.filter fun q => q.2 ≠ .failed).map (·.1)
  | _ => []

theorem all_judged {config : Config} {a : Attempt} {p : Page} (hp : a.response = .page p)
    (h : mayAdvance config (mergeOf config a.answers p) = true) {raw : Learning}
    (hraw : raw ∈ p.learnings) : raw ∈ judgedBy config a := by
  unfold judgedBy
  rw [hp]
  simp only [mayAdvance, Bool.and_eq_true, Bool.not_eq_true', beq_iff_eq] at h
  obtain ⟨⟨hteam, havailable⟩, hfailed⟩ := h
  have hverdicts : (mergeOf config a.answers p).verdicts = mergePage a.answers p.learnings := by
    unfold mergeOf mergeTeamLearnings at havailable ⊢
    rw [if_pos hteam] at havailable ⊢
    split at havailable
    · cases havailable
    · next hdir =>
        rw [if_neg hdir]
        split at havailable
        · next hempty =>
            rw [List.isEmpty_iff.mp hempty] at hraw
            cases hraw
        · next hempty =>
            rw [if_neg hempty]
            split at havailable
            · cases havailable
            · next hopens => rw [if_neg hopens]
  obtain ⟨v, hv⟩ := mem_mergePage a.answers hraw
  rw [← hverdicts] at hv
  refine List.mem_map.mpr ⟨(raw, v), List.mem_filter.mpr ⟨hv, ?_⟩, rfl⟩
  exact decide_eq_true (TeamMergeResult.ne_failed hfailed hv)

/-! ## Where the cursor goes -/

theorem foldl_max_spec (seqs : List Int) (n : Int) :
    n ≤ seqs.foldl max n ∧ (∀ m ∈ seqs, m ≤ seqs.foldl max n) ∧
      (seqs.foldl max n = n ∨ seqs.foldl max n ∈ seqs) := by
  induction seqs generalizing n with
  | nil => simp
  | cons m seqs ih =>
      obtain ⟨hle, hall, hwhich⟩ := ih (max n m)
      rw [List.foldl_cons]
      refine ⟨by omega, ?_, ?_⟩
      · intro k hk
        rcases List.mem_cons.mp hk with rfl | hk
        · omega
        · exact hall k hk
      · rcases hwhich with heq | hmem
        · rw [heq]
          rcases max_choice n m with hn | hm
          · exact .inl hn
          · exact .inr (List.mem_cons.mpr (.inl hm))
        · exact .inr (List.mem_cons_of_mem _ hmem)

theorem mapM_some {α β : Type} {f : α → Option β} {xs : List α} {ys : List β}
    (h : xs.mapM f = some ys) :
    (∀ x ∈ xs, ∃ y ∈ ys, f x = some y) ∧ ∀ y ∈ ys, ∃ x ∈ xs, f x = some y := by
  induction xs generalizing ys with
  | nil =>
      obtain rfl : ys = [] := by simpa using h.symm
      simp
  | cons x xs ih =>
      rw [List.mapM_cons] at h
      obtain ⟨y, hy, h⟩ := Option.bind_eq_some_iff.mp h
      obtain ⟨zs, hzs, h⟩ := Option.bind_eq_some_iff.mp h
      obtain rfl : y :: zs = ys := by simpa using h
      obtain ⟨hfwd, hback⟩ := ih hzs
      refine ⟨fun a ha => ?_, fun b hb => ?_⟩
      · rcases List.mem_cons.mp ha with rfl | ha
        · exact ⟨y, List.mem_cons_self, hy⟩
        · obtain ⟨z, hz, hf⟩ := hfwd a ha
          exact ⟨z, List.mem_cons_of_mem _ hz, hf⟩
      · rcases List.mem_cons.mp hb with rfl | hb
        · exact ⟨x, List.mem_cons_self, hy⟩
        · obtain ⟨a, ha, hf⟩ := hback b hb
          exact ⟨a, List.mem_cons_of_mem _ ha, hf⟩

theorem mapM_isSome {α β : Type} {f : α → Option β} {xs : List α}
    (h : ∀ x ∈ xs, (f x).isSome) : ∃ ys, xs.mapM f = some ys := by
  induction xs with
  | nil => exact ⟨[], rfl⟩
  | cons x xs ih =>
      obtain ⟨y, hy⟩ := Option.isSome_iff_exists.mp (h x List.mem_cons_self)
      obtain ⟨ys, hys⟩ := ih fun a ha => h a (List.mem_cons_of_mem _ ha)
      exact ⟨y :: ys, by rw [List.mapM_cons, hy, hys]; rfl⟩

section

variable {intOf : IntOf} {config : Config} {s : Int} {a : Attempt} {p : Page} {step : PullStep}

theorem pull_held (hp : a.response = .page p)
    (h : mayAdvance config (mergeOf config a.answers p) = false) :
    pullAndMerge intOf config s a =
      .ok ⟨.page p, mergeOf config a.answers p, p.learnings.length, s, false⟩ := by
  unfold pullAndMerge
  rw [hp]
  simp [h]

theorem pull_judged (hp : a.response = .page p)
    (h : mayAdvance config (mergeOf config a.answers p) = true)
    (hstep : pullAndMerge intOf config s a = .ok step) :
    step.result = .page p ∧ step.pulled = p.learnings.length ∧ step.cursorMayAdvance = true ∧
      s ≤ step.nextPullSeq ∧
      (∀ item ∈ p.learnings, isCompanyEntry item = false →
        ∃ n, itemSeq intOf item = some n ∧ n ≤ step.nextPullSeq) ∧
      (step.nextPullSeq = s ∨ ∃ item ∈ p.learnings, isCompanyEntry item = false ∧
        itemSeq intOf item = some step.nextPullSeq) := by
  unfold pullAndMerge at hstep
  rw [hp] at hstep
  simp only [h, if_true] at hstep
  split at hstep
  · cases hstep
  · next seqs hseqs =>
      cases hstep
      obtain ⟨hfwd, hback⟩ := mapM_some hseqs
      obtain ⟨hle, hall, hwhich⟩ := foldl_max_spec seqs s
      refine ⟨rfl, rfl, rfl, hle, fun item hitem hcompany => ?_, hwhich.imp_right fun hmem => ?_⟩
      · obtain ⟨n, hn, hseq⟩ := hfwd item (List.mem_filter.mpr ⟨hitem, by simp [hcompany]⟩)
        exact ⟨n, hseq, hall n hn⟩
      · obtain ⟨item, hitem, hseq⟩ := hback _ hmem
        obtain ⟨hitem, hcompany⟩ := List.mem_filter.mp hitem
        exact ⟨item, hitem, by simpa using hcompany, hseq⟩

theorem pull_ok_iff (hp : a.response = .page p) :
    (∃ step, pullAndMerge intOf config s a = .ok step) ↔
      (mayAdvance config (mergeOf config a.answers p) = true →
        ∀ item ∈ p.learnings, isCompanyEntry item = false → (itemSeq intOf item).isSome) := by
  constructor
  · rintro ⟨step, hstep⟩ h item hitem hcompany
    obtain ⟨-, -, -, -, hall, -⟩ := pull_judged hp h hstep
    obtain ⟨n, hn, -⟩ := hall item hitem hcompany
    rw [hn]
    rfl
  · intro hall
    cases h : mayAdvance config (mergeOf config a.answers p) with
    | false => exact ⟨_, pull_held hp h⟩
    | true =>
        have hsome : ∀ item ∈ p.learnings.filter fun item => !isCompanyEntry item,
            (itemSeq intOf item).isSome := by
          intro item hitem
          obtain ⟨hitem, hcompany⟩ := List.mem_filter.mp hitem
          exact hall h item hitem (by simpa using hcompany)
        obtain ⟨seqs, hseqs⟩ := mapM_isSome hsome
        unfold pullAndMerge
        rw [hp]
        simp only [h, if_true]
        rw [show orgSeqs intOf p = some seqs from hseqs]
        exact ⟨_, rfl⟩

theorem pull_no_page (hp : ∀ p, a.response ≠ .page p) :
    pullAndMerge intOf config s a = .ok ⟨a.response, {}, 0, s, false⟩ := by
  unfold pullAndMerge
  split
  · next p hpage => exact absurd hpage (hp p)
  · rfl

end

/-! ## The server -/

/-- The learnings a server holds; a company learning says so in its metadata. -/
structure Server where
  org : Set Learning
  company : Set Learning
  seq : Learning → Int
  companySeq : Learning → Int
  org_entry : ∀ x ∈ org, isCompanyEntry x = false ∧ 0 < seq x ∧
    Dict.lookup x "sync_seq" = some (.int (seq x))
  company_entry : ∀ x ∈ company, isCompanyEntry x = true ∧ 0 < companySeq x

/-- The page for the cursors `s` and `c` leaves nothing out below its own end. -/
structure Serves (server : Server) (s c : Int) (p : Page) : Prop where
  held : ∀ x ∈ p.learnings, x ∈ server.org ∨ x ∈ server.company
  org : ∀ y ∈ p.learnings, y ∈ server.org → ∀ x ∈ server.org, s < server.seq x →
    server.seq x ≤ server.seq y → x ∈ p.learnings
  company : ∀ x ∈ server.company, c < server.companySeq x →
    server.companySeq x ≤ p.nextCompanySeq → x ∈ p.learnings

def Served (server : Server) (s c : Int) (a : Attempt) : Prop :=
  ∀ p, a.response = .page p → Serves server s c p

def OrgJudged (server : Server) (judged : List Learning) (n : Int) : Prop :=
  ∀ x ∈ server.org, server.seq x ≤ n → x ∈ judged

def CompanyJudged (server : Server) (judged : List Learning) (n : Int) : Prop :=
  ∀ x ∈ server.company, server.companySeq x ≤ n → x ∈ judged

section

variable {server : Server} {judged more : List Learning} {n m : Int}

theorem OrgJudged.mono (h : OrgJudged server judged n) (hsub : judged ⊆ more) :
    OrgJudged server more n := fun x hx hle => hsub (h x hx hle)

theorem CompanyJudged.mono (h : CompanyJudged server judged n) (hsub : judged ⊆ more) :
    CompanyJudged server more n := fun x hx hle => hsub (h x hx hle)

theorem OrgJudged.max (h : OrgJudged server judged n) (h' : OrgJudged server judged m) :
    OrgJudged server judged (max n m) := by
  intro x hx hle
  rcases le_max_iff.mp hle with hn | hm
  · exact h x hx hn
  · exact h' x hx hm

theorem CompanyJudged.max (h : CompanyJudged server judged n)
    (h' : CompanyJudged server judged m) : CompanyJudged server judged (max n m) := by
  intro x hx hle
  rcases le_max_iff.mp hle with hn | hm
  · exact h x hx hn
  · exact h' x hx hm

end

section

variable {intOf : IntOf} {config : Config} {server : Server} {s c : Int} {a : Attempt}
  {p : Page} {step : PullStep} {judged : List Learning}

theorem pull_sound (hserved : Served server s c a)
    (hstep : pullAndMerge intOf config s a = .ok step) (horg : OrgJudged server judged s) :
    OrgJudged server (judged ++ judgedBy config a) step.nextPullSeq := by
  cases hresponse : a.response with
  | page p =>
      cases h : mayAdvance config (mergeOf config a.answers p) with
      | false =>
          rw [pull_held hresponse h] at hstep
          cases hstep
          exact horg.mono (List.subset_append_left _ _)
      | true =>
          obtain ⟨-, -, -, -, -, hwhich⟩ := pull_judged hresponse h hstep
          have hserves := hserved p hresponse
          intro x hx hle
          rcases hwhich with heq | ⟨item, hitem, hcompany, hseq⟩
          · exact List.mem_append_left _ (horg x hx (heq ▸ hle))
          · have hitemOrg : item ∈ server.org := by
              rcases hserves.held item hitem with hmem | hmem
              · exact hmem
              · rw [(server.company_entry item hmem).1] at hcompany
                cases hcompany
            have hnext : step.nextPullSeq = server.seq item := by
              unfold itemSeq at hseq
              rw [(server.org_entry item hitemOrg).2.2] at hseq
              exact (Option.some.inj hseq).symm
            rcases le_or_gt (server.seq x) s with hold | hnew
            · exact List.mem_append_left _ (horg x hx hold)
            · refine List.mem_append_right _ (all_judged hresponse h ?_)
              exact hserves.org item hitem hitemOrg x hx hnew (hnext ▸ hle)
  | failed =>
      rw [pull_no_page (by simp [hresponse])] at hstep
      cases hstep
      exact horg.mono (List.subset_append_left _ _)
  | notModified =>
      rw [pull_no_page (by simp [hresponse])] at hstep
      cases hstep
      exact horg.mono (List.subset_append_left _ _)

theorem company_sound (hserved : Served server s c a) (hp : a.response = .page p)
    (h : mayAdvance config (mergeOf config a.answers p) = true)
    (hcompany : CompanyJudged server judged c) :
    CompanyJudged server (judged ++ judgedBy config a) (max c p.nextCompanySeq) := by
  intro x hx hle
  rcases le_or_gt (server.companySeq x) c with hold | hnew
  · exact List.mem_append_left _ (hcompany x hx hold)
  · refine List.mem_append_right _ (all_judged hp h ?_)
    exact (hserved p hp).company x hx hnew (by omega)

theorem pull_step (hstep : pullAndMerge intOf config s a = .ok step) :
    step.result = a.response ∧ s ≤ step.nextPullSeq ∧
      (step.cursorMayAdvance = true → ∃ p, a.response = .page p ∧
        mayAdvance config (mergeOf config a.answers p) = true) := by
  cases hresponse : a.response with
  | page p =>
      cases h : mayAdvance config (mergeOf config a.answers p) with
      | false =>
          rw [pull_held hresponse h] at hstep
          cases hstep
          exact ⟨rfl, le_refl _, by simp⟩
      | true =>
          obtain ⟨hresult, -, -, hle, -, -⟩ := pull_judged hresponse h hstep
          exact ⟨hresult, hle, fun _ => ⟨p, rfl, h⟩⟩
  | failed =>
      rw [pull_no_page (by simp [hresponse])] at hstep
      cases hstep
      exact ⟨hresponse, le_refl _, by simp⟩
  | notModified =>
      rw [pull_no_page (by simp [hresponse])] at hstep
      cases hstep
      exact ⟨hresponse, le_refl _, by simp⟩

end

/-! ## Cycles -/

/-- The cursors and the positions of an unfinished replay are judged. -/
structure Sound (server : Server) (judged : List Learning) (c : Cursors) : Prop where
  org : OrgJudged server judged c.lastPullSeq
  company : CompanyJudged server judged c.lastCompanyPullSeq
  replay : ∀ block, c.replay = some block →
    OrgJudged server judged block.nextSeq ∧ CompanyJudged server judged block.companySeq

/-- No cursor went back. -/
structure Forward (c c' : Cursors) : Prop where
  org : c.lastPullSeq ≤ c'.lastPullSeq
  company : c.lastCompanyPullSeq ≤ c'.lastCompanyPullSeq

theorem Forward.refl (c : Cursors) : Forward c c := ⟨le_refl _, le_refl _⟩

theorem Forward.trans {c d e : Cursors} (h : Forward c d) (h' : Forward d e) : Forward c e :=
  ⟨h.org.trans h'.org, h.company.trans h'.company⟩

theorem Sound.mono {server : Server} {judged more : List Learning} {c : Cursors}
    (h : Sound server judged c) (hsub : judged ⊆ more) : Sound server more c :=
  ⟨h.org.mono hsub, h.company.mono hsub, fun block hb =>
    ⟨(h.replay block hb).1.mono hsub, (h.replay block hb).2.mono hsub⟩⟩

section

variable {intOf : IntOf} {server : Server} {judged : List Learning} {c : Cursors}

theorem Sound.recordPullSeq {seq : Int} (h : Sound server judged c)
    (hseq : OrgJudged server judged seq) : Sound server judged (c.recordPullSeq seq) :=
  ⟨h.org.max hseq, h.company, h.replay⟩

theorem Sound.recordCompanyPullSeq {seq : Int} (h : Sound server judged c)
    (hseq : CompanyJudged server judged seq) :
    Sound server judged (c.recordCompanyPullSeq seq) :=
  ⟨h.org, h.company.max hseq, h.replay⟩

theorem Sound.recordReplayPage {seq companySeq : Int} {pages : Nat} (h : Sound server judged c)
    (hseq : OrgJudged server judged seq) (hcompany : CompanyJudged server judged companySeq) :
    Sound server judged (c.recordReplayPage seq companySeq pages) := by
  refine ⟨h.org.max hseq, h.company.max hcompany, fun block hb => ?_⟩
  obtain rfl := Option.some.inj hb
  exact ⟨hseq, hcompany⟩

theorem runCycle_sound (call : CycleCall) (h : Sound server judged c)
    (hserved : Served server c.lastPullSeq c.lastCompanyPullSeq call.attempt) :
    Sound server (judged ++ judgedBy call.config call.attempt) (runCycle intOf call c) := by
  have hmono : Sound server (judged ++ judgedBy call.config call.attempt) c :=
    h.mono (List.subset_append_left _ _)
  unfold runCycle
  split
  · exact hmono
  · next step hstep =>
      obtain ⟨hresult, -, hmay⟩ := pull_step hstep
      have hnext := pull_sound hserved hstep h.org
      split
      · exact hmono
      · split
        · exact hmono
        · exact hmono.recordPullSeq hmono.org
      · next p hp =>
          have hcompany : Sound server (judged ++ judgedBy call.config call.attempt)
              (if step.cursorMayAdvance then
                c.recordCompanyPullSeq (max c.lastCompanyPullSeq p.nextCompanySeq) else c) := by
            split
            · next hadvance =>
                obtain ⟨p', hp', hmerge⟩ := hmay hadvance
                rw [hp', hp] at hresult
                cases hresult
                exact hmono.recordCompanyPullSeq (company_sound hserved hp' hmerge h.company)
            · exact hmono
          dsimp only
          split
          · exact hcompany
          · exact hcompany.recordPullSeq hnext

theorem runCycle_forward (call : CycleCall) : Forward c (runCycle intOf call c) := by
  unfold runCycle
  split
  · exact .refl c
  · next step hstep =>
      split
      · exact .refl c
      · split
        · exact .refl c
        · exact ⟨le_max_left _ _, le_refl _⟩
      · next p _ =>
          have hcompany : Forward c (if step.cursorMayAdvance then
              c.recordCompanyPullSeq (max c.lastCompanyPullSeq p.nextCompanySeq) else c) := by
            split
            · exact ⟨le_refl _, le_max_left _ _⟩
            · exact .refl c
          dsimp only
          split
          · exact hcompany
          · exact hcompany.trans ⟨le_max_left _ _, le_refl _⟩

theorem runCycle_advances (call : CycleCall) (hstopped : call.stopped = false) {p : Page}
    (hp : call.attempt.response = .page p)
    (h : mayAdvance call.config (mergeOf call.config call.attempt.answers p) = true)
    {step : PullStep}
    (hstep : pullAndMerge intOf call.config c.lastPullSeq call.attempt = .ok step) :
    step.nextPullSeq ≤ (runCycle intOf call c).lastPullSeq := by
  obtain ⟨hresult, -, hadvance, -, -, -⟩ := pull_judged hp h hstep
  unfold runCycle
  rw [hstep]
  simp only [hresult, hadvance, hstopped, if_true]
  simp [Cursors.recordPullSeq]

end

/-! ## Replays -/

/-- The attempts made at one page. -/
@[grind =] def tried (intOf : IntOf) (config : Config) (seq : Int) : List Attempt → List Attempt
  | [] => []
  | a :: rest =>
      a :: match pullAndMerge intOf config seq a with
        | .error _ => []
        | .ok step => if stepJudged step then [] else tried intOf config seq rest

/-- Every attempt of a replay, with the cursors it asked for. -/
@[grind =] def replayTried (intOf : IntOf) (config : Config) :
    List (List Attempt) → ReplayBlock → List (Int × Int × Attempt)
  | [], _ => []
  | attempts :: rest, block =>
      (tried intOf config block.nextSeq attempts).map
          (fun a => (block.nextSeq, block.companySeq, a)) ++
        match pageStep intOf config block.nextSeq attempts with
        | none => []
        | some step =>
            let moved := step.nextPullSeq > block.nextSeq ∨
              nextCompany block.companySeq step > block.companySeq
            if !stepJudged step then []
            else if step.pulled = 0 ∨ ¬ moved then []
            else replayTried intOf config rest
              ⟨step.nextPullSeq, nextCompany block.companySeq step, block.pages + 1⟩

section

variable {intOf : IntOf} {config : Config} {server : Server} {judged : List Learning}
  {c : Cursors} {block : ReplayBlock}

theorem pageStep_tried {seq : Int} {attempts : List Attempt} {step : PullStep}
    (h : pageStep intOf config seq attempts = some step) :
    ∃ a ∈ tried intOf config seq attempts, pullAndMerge intOf config seq a = .ok step := by
  induction attempts with
  | nil => cases h
  | cons a rest ih =>
      refine Classical.byCases (fun hstep : pullAndMerge intOf config seq a = .ok step =>
        ⟨a, List.mem_cons_self, hstep⟩) fun hother => ?_
      cases rest with
      | nil =>
          simp only [pageStep] at h
          cases hpull : pullAndMerge intOf config seq a with
          | error e => rw [hpull] at h; cases h
          | ok step' =>
              rw [hpull] at h
              exact absurd (hpull.trans (congrArg _ (Option.some.inj h))) hother
      | cons b rest =>
          simp only [pageStep] at h
          cases hpull : pullAndMerge intOf config seq a with
          | error e => rw [hpull] at h; cases h
          | ok step' =>
              rw [hpull] at h
              cases hjudged : stepJudged step' with
              | true =>
                  simp only [hjudged, if_true] at h
                  exact absurd (hpull.trans (congrArg _ (Option.some.inj h))) hother
              | false =>
                  simp only [hjudged] at h
                  obtain ⟨a', ha', hstep⟩ := ih (by simpa using h)
                  refine ⟨a', ?_, hstep⟩
                  unfold tried
                  rw [hpull]
                  simp only [hjudged]
                  exact List.mem_cons_of_mem _ (by simpa using ha')

theorem pageStep_judged {seq : Int} {attempts : List Attempt} {a : Attempt} {step : PullStep}
    (ha : a ∈ tried intOf config seq attempts)
    (hstep : pullAndMerge intOf config seq a = .ok step) (hjudged : stepJudged step = true) :
    pageStep intOf config seq attempts = some step := by
  induction attempts with
  | nil => cases ha
  | cons b rest ih =>
      unfold tried at ha
      rcases List.mem_cons.mp ha with rfl | ha
      · cases rest with
        | nil =>
            simp only [pageStep, hstep]
            rfl
        | cons b rest => simp [pageStep, hstep, hjudged]
      · cases hpull : pullAndMerge intOf config seq b with
        | error e =>
            rw [hpull] at ha
            cases ha
        | ok step' =>
            rw [hpull] at ha
            cases hjudged' : stepJudged step' with
            | true => simp [hjudged'] at ha
            | false =>
                simp only [hjudged'] at ha
                have hrest := ih (by simpa using ha)
                cases rest with
                | nil => cases hrest
                | cons b' rest => simpa [pageStep, hpull, hjudged'] using hrest

theorem advances_of_judged (companySeq : Int) {seq : Int} {step : PullStep} {a : Attempt}
    (hstep : pullAndMerge intOf config seq a = .ok step) (hjudged : stepJudged step = true)
    (hpulled : step.pulled ≠ 0) :
    ∃ p, a.response = .page p ∧ mayAdvance config (mergeOf config a.answers p) = true ∧
      nextCompany companySeq step = max companySeq p.nextCompanySeq := by
  obtain ⟨hresult, -, hmay⟩ := pull_step hstep
  unfold stepJudged at hjudged
  have hadvance : step.cursorMayAdvance = true := by
    split at hjudged
    · cases hjudged
    · simpa [hpulled] using hjudged
  obtain ⟨p, hp, h⟩ := hmay hadvance
  refine ⟨p, hp, h, ?_⟩
  unfold nextCompany
  rw [hresult, hp]

theorem replayPages_sound {pages : List (List Attempt)} (h : Sound server judged c)
    (hblock : OrgJudged server judged block.nextSeq ∧
      CompanyJudged server judged block.companySeq)
    (hserved : ∀ q ∈ replayTried intOf config pages block, Served server q.1 q.2.1 q.2.2)
    (hjudged : ∀ q ∈ replayTried intOf config pages block, judgedBy config q.2.2 ⊆ judged) :
    Sound server judged (replayPages intOf config pages block c) := by
  induction pages generalizing block c with
  | nil => exact h
  | cons attempts rest ih =>
      unfold replayTried at hserved hjudged
      unfold replayPages
      cases hpage : pageStep intOf config block.nextSeq attempts with
      | none => exact h
      | some step =>
          rw [hpage] at hserved hjudged
          dsimp only at hserved hjudged ⊢
          split
          · exact h
          · next hstep =>
              rw [if_neg hstep] at hserved hjudged
              split
              · exact ⟨h.org, h.company, by simp⟩
              · next hmore =>
                  rw [if_neg hmore] at hserved hjudged
                  have hstep : stepJudged step = true := by simpa using hstep
                  have hpulled : step.pulled ≠ 0 := fun hzero => hmore (.inl hzero)
                  obtain ⟨a, ha, hpull⟩ := pageStep_tried hpage
                  have hmem : (block.nextSeq, block.companySeq, a) ∈
                      (tried intOf config block.nextSeq attempts).map
                        (fun a => (block.nextSeq, block.companySeq, a)) :=
                    List.mem_map.mpr ⟨a, ha, rfl⟩
                  have hsub : judged ++ judgedBy config a ⊆ judged :=
                    List.append_subset.mpr ⟨List.Subset.refl _,
                      hjudged _ (List.mem_append_left _ hmem)⟩
                  have hserve : Served server block.nextSeq block.companySeq a :=
                    hserved _ (List.mem_append_left _ hmem)
                  have horg := (pull_sound hserve hpull hblock.1).mono hsub
                  obtain ⟨p, hp, hmay, hnext⟩ := advances_of_judged block.companySeq hpull
                    hstep hpulled
                  have hcompany : CompanyJudged server judged
                      (nextCompany block.companySeq step) := by
                    rw [hnext]
                    exact (company_sound hserve hp hmay hblock.2).mono hsub
                  exact ih (h.recordReplayPage horg hcompany) ⟨horg, hcompany⟩
                    (fun q hq => hserved q (List.mem_append_right _ hq))
                    fun q hq => hjudged q (List.mem_append_right _ hq)

theorem recordReplayPage_forward (seq companySeq : Int) (pages : Nat) :
    Forward c (c.recordReplayPage seq companySeq pages) :=
  ⟨le_max_left _ _, le_max_left _ _⟩

theorem replayPages_forward (pages : List (List Attempt)) :
    Forward c (replayPages intOf config pages block c) := by
  induction pages generalizing block c with
  | nil => exact .refl c
  | cons attempts rest ih =>
      unfold replayPages
      split
      · exact .refl c
      · dsimp only
        split
        · exact .refl c
        · split
          · exact ⟨le_refl _, le_refl _⟩
          · exact (recordReplayPage_forward _ _ _).trans ih

theorem replayPages_advances {pages : List (List Attempt)}
    (hblock : block.nextSeq ≤ c.lastPullSeq) {q : Int × Int × Attempt}
    (hq : q ∈ replayTried intOf config pages block) {p : Page} (hp : q.2.2.response = .page p)
    (h : mayAdvance config (mergeOf config q.2.2.answers p) = true) {step : PullStep}
    (hstep : pullAndMerge intOf config q.1 q.2.2 = .ok step) (hpulled : step.pulled ≠ 0) :
    step.nextPullSeq ≤ (replayPages intOf config pages block c).lastPullSeq := by
  induction pages generalizing block c with
  | nil => cases hq
  | cons attempts rest ih =>
      unfold replayTried at hq
      unfold replayPages
      rcases List.mem_append.mp hq with hq | hq
      · obtain ⟨a, ha, rfl⟩ := List.mem_map.mp hq
        obtain ⟨hresult, -, hadvance, -, -, -⟩ := pull_judged hp h hstep
        have hjudged : stepJudged step = true := by
          unfold stepJudged
          rw [hresult, hadvance]
          rfl
        rw [pageStep_judged ha hstep hjudged]
        dsimp only
        rw [if_neg (by simp [hjudged])]
        split
        · next hend =>
            have hstay : ¬ step.nextPullSeq > block.nextSeq := by
              rcases hend with hzero | hmoved
              · exact absurd hzero hpulled
              · exact fun hgt => hmoved (.inl hgt)
            show step.nextPullSeq ≤ c.lastPullSeq
            omega
        · exact le_trans (le_max_right _ _) (replayPages_forward rest).org
      · cases hpage : pageStep intOf config block.nextSeq attempts with
        | none =>
            rw [hpage] at hq
            cases hq
        | some step' =>
            rw [hpage] at hq
            dsimp only at hq ⊢
            split at hq
            · cases hq
            · next hjudged =>
                rw [if_neg hjudged]
                split at hq
                · cases hq
                · next hmore =>
                    rw [if_neg hmore]
                    exact ih (le_max_right _ _) hq

end

/-! ## Runs -/

/-- One turn of a driver. -/
inductive Op where
  | cycle (call : CycleCall)
  | replay (call : ReplayCall)

/-- The cursors, and every learning judged so far. -/
structure World where
  cursors : Cursors
  judged : List Learning

/-- The attempts of a turn, with the configuration and the cursors they ask for. -/
def Op.attempts (intOf : IntOf) (c : Cursors) : Op → List (Config × Int × Int × Attempt)
  | .cycle call => [(call.config, c.lastPullSeq, c.lastCompanyPullSeq, call.attempt)]
  | .replay call =>
      if c.replay.isSome && !call.resume then []
      else (replayTried intOf call.config call.pages (c.replay.getD ⟨0, 0, 0⟩)).map
        fun q => (call.config, q)

def Op.run (intOf : IntOf) (c : Cursors) : Op → Cursors
  | .cycle call => runCycle intOf call c
  | .replay call => runFullPull intOf call c

def Op.stopped : Op → Bool
  | .cycle call => call.stopped
  | .replay _ => false

def PullOp (intOf : IntOf) (server : Server) (w : World) (op : Op) (w' : World) : Prop :=
  (∀ q ∈ op.attempts intOf w.cursors, Served server q.2.1 q.2.2.1 q.2.2.2) ∧
    w' = ⟨op.run intOf w.cursors,
      w.judged ++ (op.attempts intOf w.cursors).flatMap fun q => judgedBy q.1 q.2.2.2⟩

/-- `int()` takes the `sync_seq` of every org learning of the page. -/
def Readable (intOf : IntOf) (p : Page) : Prop :=
  ∀ item ∈ p.learnings, isCompanyEntry item = false → (itemSeq intOf item).isSome

section

variable {intOf : IntOf} {server : Server} {w w' : World} {op : Op}

theorem sound_step (h : Sound server w.judged w.cursors) (hstep : PullOp intOf server w op w') :
    Sound server w'.judged w'.cursors := by
  obtain ⟨hserved, rfl⟩ := hstep
  cases op with
  | cycle call =>
      have hcycle := @runCycle_sound intOf _ _ _ call h (hserved _ List.mem_cons_self)
      exact hcycle.mono (by simp [Op.attempts])
  | replay call =>
      have hmono : Sound server (w.judged ++ ((Op.replay call).attempts intOf w.cursors).flatMap
          fun q => judgedBy q.1 q.2.2.2) w.cursors := h.mono (List.subset_append_left _ _)
      simp only [Op.run, runFullPull]
      split
      · exact hmono
      · next hgo =>
          have hattempts : (Op.replay call).attempts intOf w.cursors =
              (replayTried intOf call.config call.pages (w.cursors.replay.getD ⟨0, 0, 0⟩)).map
                fun q => (call.config, q) := if_neg hgo
          rw [hattempts] at hserved hmono ⊢
          have hblock : OrgJudged server (w.judged ++ List.flatMap
              (fun q => judgedBy q.1 q.2.2.2) ((replayTried intOf call.config call.pages
                (w.cursors.replay.getD ⟨0, 0, 0⟩)).map fun q => (call.config, q)))
                (w.cursors.replay.getD ⟨0, 0, 0⟩).nextSeq ∧
              CompanyJudged server (w.judged ++ List.flatMap
              (fun q => judgedBy q.1 q.2.2.2) ((replayTried intOf call.config call.pages
                (w.cursors.replay.getD ⟨0, 0, 0⟩)).map fun q => (call.config, q)))
                (w.cursors.replay.getD ⟨0, 0, 0⟩).companySeq := by
            cases hreplay : w.cursors.replay with
            | some block =>
                simpa only [hreplay, Option.getD_some] using hmono.replay block hreplay
            | none =>
                refine ⟨fun x hx hle => ?_, fun x hx hle => ?_⟩
                · exact absurd hle (not_le.mpr (server.org_entry x hx).2.1)
                · exact absurd hle (not_le.mpr (server.company_entry x hx).2)
          refine replayPages_sound (hmono.recordReplayPage hblock.1 hblock.2) hblock ?_ ?_
          · exact fun q hq => hserved (call.config, q) (List.mem_map.mpr ⟨q, hq, rfl⟩)
          · intro q hq x hx
            refine List.mem_append_right _ (List.mem_flatMap.mpr ⟨(call.config, q), ?_, hx⟩)
            exact List.mem_map.mpr ⟨q, hq, rfl⟩

theorem run_forward (intOf : IntOf) (c : Cursors) (op : Op) : Forward c (op.run intOf c) := by
  cases op with
  | cycle call => exact runCycle_forward call
  | replay call =>
      simp only [Op.run, runFullPull]
      split
      · exact .refl c
      · exact (recordReplayPage_forward _ _ _).trans (replayPages_forward call.pages)

theorem run_advances {c : Cursors} {q : Config × Int × Int × Attempt}
    (hq : q ∈ op.attempts intOf c) (hstopped : op.stopped = false) {p : Page}
    (hp : q.2.2.2.response = .page p)
    (h : mayAdvance q.1 (mergeOf q.1 q.2.2.2.answers p) = true) (hread : Readable intOf p)
    {item : Learning} (hitem : item ∈ p.learnings) (hcompany : isCompanyEntry item = false)
    {n : Int} (hn : itemSeq intOf item = some n) : n ≤ (op.run intOf c).lastPullSeq := by
  obtain ⟨step, hstep⟩ := (@pull_ok_iff intOf _ q.2.1 _ _ hp).mpr fun _ => hread
  obtain ⟨-, hpulled, -, -, hall, -⟩ := pull_judged hp h hstep
  obtain ⟨m, hm, hle⟩ := hall item hitem hcompany
  obtain rfl := Option.some.inj (hm.symm.trans hn)
  refine hle.trans ?_
  cases op with
  | cycle call =>
      obtain rfl := List.mem_singleton.mp hq
      exact runCycle_advances call hstopped hp h hstep
  | replay call =>
      simp only [Op.attempts] at hq
      split at hq
      · cases hq
      · next hgo =>
          obtain ⟨q', hq', rfl⟩ := List.mem_map.mp hq
          simp only [Op.run, runFullPull]
          rw [if_neg hgo]
          refine replayPages_advances (le_max_right _ _) hq' hp h hstep ?_
          rw [hpulled]
          exact fun hzero => by
            rw [List.length_eq_zero_iff.mp hzero] at hitem
            cases hitem

end

theorem pull_cursors (intOf : IntOf) (server : Server) (ops : List Op) (w : World)
    (hrun : Run (PullOp intOf server) ⟨⟨0, 0, none⟩, []⟩ ops w) :
    (OrgJudged server w.judged w.cursors.lastPullSeq ∧
      CompanyJudged server w.judged w.cursors.lastCompanyPullSeq) ∧
    (∀ before after, ops = before ++ after →
      ∃ w₀, Run (PullOp intOf server) ⟨⟨0, 0, none⟩, []⟩ before w₀ ∧
        Forward w₀.cursors w.cursors) ∧
    ∀ (c : Cursors) (op : Op), ∀ q ∈ op.attempts intOf c, ∀ p, q.2.2.2.response = .page p →
      ((∃ step, pullAndMerge intOf q.1 q.2.1 q.2.2.2 = .ok step) ↔
        (mayAdvance q.1 (mergeOf q.1 q.2.2.2.answers p) = true → Readable intOf p)) ∧
      (mayAdvance q.1 (mergeOf q.1 q.2.2.2.answers p) = true → op.stopped = false →
        Readable intOf p → ∀ item ∈ p.learnings, isCompanyEntry item = false →
          ∀ n, itemSeq intOf item = some n → n ≤ (op.run intOf c).lastPullSeq) := by
  have h0 : Sound server [] ⟨0, 0, none⟩ := by
    refine ⟨fun x hx hle => ?_, fun x hx hle => ?_, by simp⟩
    · exact absurd hle (not_le.mpr (server.org_entry x hx).2.1)
    · exact absurd hle (not_le.mpr (server.company_entry x hx).2)
  have h : Sound server w.judged w.cursors :=
    @Run.invariant _ _ _ _ w ops (fun w => Sound server w.judged w.cursors) h0
      (fun _ _ _ hs hstep => sound_step hs hstep) hrun
  refine ⟨⟨h.org, h.company⟩, ?_, fun c op q hq p hp => ⟨pull_ok_iff hp, ?_⟩⟩
  · rintro before after rfl
    obtain ⟨w₀, hbefore, hafter⟩ := hrun.of_append
    refine ⟨w₀, hbefore, @Run.invariant _ _ _ w₀ w after
      (fun w => Forward w₀.cursors w.cursors) (.refl _) ?_ hafter⟩
    rintro s op s' hs ⟨-, rfl⟩
    exact hs.trans (run_forward intOf s.cursors op)
  · intro hmay hstopped hread item hitem hcompany n hn
    exact run_advances hq hstopped hp hmay hread hitem hcompany hn

/-! ## A page taken, and one that is not -/

def sampleItem (seq : Json) : Learning :=
  [("source_learning_id", .str "L-1"), ("summary", .str "note"), ("sync_seq", seq)]

def sampleIntOf : IntOf := ⟨fun _ => none, fun _ => none⟩

def sampleStore : StoreAnswers where
  opens := true
  plan := fun _ => .write false
  batch := fun _ => some ["stored"]
  reread := fun _ _ => .write false
  apply := fun _ _ => some "stored"
  conflictAttempts := 3

def sampleCall (seq : Json) : CycleCall where
  config := ⟨true, true⟩
  attempt := ⟨.page ⟨[sampleItem seq], 0⟩, sampleStore⟩
  push := true
  stopped := false

def sampleServer : Server where
  org := {sampleItem (.int 7)}
  company := ∅
  seq := fun _ => 7
  companySeq := fun _ => 0
  org_entry := by
    rintro x rfl
    exact ⟨by decide, by decide, rfl⟩
  company_entry := fun x hx => absurd hx (Set.notMem_empty x)

theorem pull_cursors_sample :
    ∃ w : World, OrgJudged sampleServer w.judged w.cursors.lastPullSeq ∧
      w.cursors.lastPullSeq = 7 := by
  have hserved : Served sampleServer 0 0 (sampleCall (.int 7)).attempt := by
    intro p hp
    obtain rfl : ⟨[sampleItem (.int 7)], 0⟩ = p := Response.page.inj hp
    refine ⟨fun x hx => .inl (List.mem_singleton.mp hx), ?_, fun x hx => ?_⟩
    · rintro y - - x rfl - -
      exact List.mem_cons_self
    · exact absurd hx (Set.notMem_empty x)
  have hstep : PullOp sampleIntOf sampleServer ⟨⟨0, 0, none⟩, []⟩ (.cycle (sampleCall (.int 7)))
      ⟨⟨7, 0, none⟩, [sampleItem (.int 7)]⟩ := by
    refine ⟨fun q hq => ?_, by rfl⟩
    obtain rfl := List.mem_singleton.mp hq
    exact hserved
  exact ⟨_, (pull_cursors sampleIntOf sampleServer _ _ (Run.single hstep)).1.1, rfl⟩

/-- A learning whose `sync_seq` is null is merged, and then the pull raises. -/
theorem null_sync_seq_raises :
    mayAdvance ⟨true, true⟩ (mergeOf ⟨true, true⟩ sampleStore ⟨[sampleItem .null], 0⟩) = true ∧
      judgedBy ⟨true, true⟩ (sampleCall .null).attempt = [sampleItem .null] ∧
      pullAndMerge sampleIntOf ⟨true, true⟩ 0 (sampleCall .null).attempt =
        .error "int() argument" ∧
      runCycle sampleIntOf (sampleCall .null) ⟨0, 0, none⟩ = ⟨0, 0, none⟩ :=
  ⟨by rfl, by rfl, by rfl, by rfl⟩

end TrwMcp.Sync
