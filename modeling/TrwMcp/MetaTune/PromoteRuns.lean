import TrwMcp.MetaTune.Promote

/-!
# Promotions complete, rollbacks in order

What a promotion does to the files, for every way its writes can end; and the runs in which the
promotions in force form a stack that the rollbacks take down from the top.
-/

namespace TrwMcp.MetaTune

open Lib

/-! ## Only the audit log grows -/

def AuditOnly (s s' : Store) : Prop := ∃ extra, s' = { s with audit := s.audit ++ extra }

theorem AuditOnly.refl (s : Store) : AuditOnly s s := ⟨[], by simp⟩

theorem AuditOnly.trans {s t u : Store} (h : AuditOnly s t) (h' : AuditOnly t u) :
    AuditOnly s u := by
  obtain ⟨e, rfl⟩ := h
  obtain ⟨e', rfl⟩ := h'
  exact ⟨e ++ e', by simp⟩

theorem writing_cases (fate : Fate) (f : Store → Store) (s : Store) :
    writing fate f s = (.ok (), f s) ∨
      (∃ fault, fate = .raises fault true ∧ writing fate f s = (.error fault, f s)) ∨
      ∃ fault, fate = .raises fault false ∧ writing fate f s = (.error fault, s) := by
  cases fate with
  | ok => exact .inl rfl
  | raises fault landed =>
      cases landed with
      | true => exact .inr (.inl ⟨fault, rfl, rfl⟩)
      | false => exact .inr (.inr ⟨fault, rfl, rfl⟩)

theorem writing_moves {R : Store → Store → Prop} {fate : Fate} {f : Store → Store}
    (hrefl : ∀ s, R s s) (hf : ∀ s, R s (f s)) : Eff.Moves R (writing fate f) := by
  intro s
  obtain h | ⟨fault, -, h⟩ | ⟨fault, -, h⟩ := writing_cases fate f s
  · rw [h]; exact hf s
  · rw [h]; exact hf s
  · rw [h]; exact hrefl s

theorem writing_eq_ok {fate : Fate} {f : Store → Store} {s s' : Store} {u : Unit}
    (h : writing fate f s = (.ok u, s')) : s' = f s := by
  obtain h' | ⟨fault, -, h'⟩ | ⟨fault, -, h'⟩ := writing_cases fate f s
  · rw [h'] at h
    exact (Prod.mk.inj h).2.symm
  · rw [h'] at h; cases h
  · rw [h'] at h; cases h

theorem append_moves {fate : Fate} {e : AuditEntry} :
    Eff.Moves AuditOnly (appendAuditEntry fate e) :=
  writing_moves AuditOnly.refl fun _ => ⟨[e], rfl⟩

section

variable (call : PromoteCall) (history : List ℚ) (delta : ℚ)

theorem appendVotes_moves (vs : List Vote) :
    Eff.Moves AuditOnly (appendVotes call history delta vs) := by
  induction vs with
  | nil => exact Eff.moves_pure AuditOnly.refl _
  | cons v vs ih =>
      exact Eff.moves_bind (fun _ _ _ => AuditOnly.trans) append_moves fun _ => ih

theorem persistVotes_moves : Eff.Moves AuditOnly (persistVotes call history delta) := by
  refine @Eff.moves_handle _ _ _ _ AuditOnly (fun _ _ _ => AuditOnly.trans) _ _ ?_
    fun _ => Eff.moves_pure AuditOnly.refl _
  exact Eff.moves_bind (fun _ _ _ => AuditOnly.trans) (appendVotes_moves call history delta votes)
    fun _ => Eff.moves_pure AuditOnly.refl _

theorem record_moves (d : GateDecision) : Eff.Moves AuditOnly (record call delta d) := by
  refine @Eff.moves_handle _ _ _ _ AuditOnly (fun _ _ _ => AuditOnly.trans) _ _ ?_
    fun _ => Eff.moves_pure AuditOnly.refl _
  exact Eff.moves_bind (fun _ _ _ => AuditOnly.trans) append_moves
    fun _ => Eff.moves_pure AuditOnly.refl _

theorem evaluate_moves : Eff.Moves AuditOnly (evaluate call history delta) := by
  refine Eff.moves_bind (fun _ _ _ => AuditOnly.trans) (persistVotes_moves call history delta)
    fun persisted => ?_
  cases persisted with
  | true => exact record_moves call delta _
  | false => exact Eff.moves_pure AuditOnly.refl _

theorem reject_moves (reason : String) : Eff.Moves AuditOnly (reject call reason) :=
  Eff.moves_bind (fun _ _ _ => AuditOnly.trans) append_moves
    fun _ => Eff.moves_pure AuditOnly.refl _

theorem runAfterStaging_moves : Eff.Moves AuditOnly (runAfterStaging call) := by
  unfold runAfterStaging
  refine Eff.moves_bind (fun _ _ _ => AuditOnly.trans)
    (writing_moves AuditOnly.refl AuditOnly.refl) fun _ => ?_
  refine Eff.moves_bind (fun _ _ _ => AuditOnly.trans) append_moves fun _ => ?_
  split
  · exact reject_moves call _
  · split
    · exact reject_moves call _
    · split
      · exact Eff.moves_raise AuditOnly.refl _
      · split
        · exact Eff.moves_raise AuditOnly.refl _
        · exact Eff.moves_bind (fun _ _ _ => AuditOnly.trans) (Eff.moves_read AuditOnly.refl)
            fun _ => evaluate_moves call _ _

/-! ## What an approval rests on -/

/-- The log holds the four passing votes of the edit and its `promoted` entry. -/
def Approved (log : List AuditEntry) : Prop :=
  (∀ v ∈ votes, ∃ e ∈ log, e.editId = call.editId ∧ e.event = "vote" ∧
    e.voteType = some v.type ∧ e.verdict = some "pass") ∧
  ∃ e ∈ log, e.editId = call.editId ∧ e.event = "promoted" ∧ e.gateDecision = "approve"

/-- The inputs on which every vote passes. -/
def Passing (log : List AuditEntry) : Prop :=
  ∃ delta, call.metricDelta = some delta ∧
    ∀ v ∈ votes, passes call (recentHistory log) delta v = true

theorem appendVotes_eq_ok {vs : List Vote} {s s' : Store} {u : Unit}
    (h : appendVotes call history delta vs s = (.ok u, s')) :
    s'.audit = s.audit ++ vs.map (voteEntry call history delta) := by
  induction vs generalizing s with
  | nil =>
      obtain ⟨-, rfl⟩ := Eff.pure_eq_ok.mp h
      simp
  | cons v vs ih =>
      obtain ⟨_, t, hv, hvs⟩ := Eff.bind_eq_ok.mp h
      rw [ih hvs, writing_eq_ok hv]
      simp

theorem persistVotes_eq_ok {s s' : Store}
    (h : persistVotes call history delta s = (.ok true, s')) :
    s'.audit = s.audit ++ votes.map (voteEntry call history delta) := by
  obtain h | ⟨fault, t, -, -, h⟩ := Eff.handle_eq_ok.mp h
  · obtain ⟨_, t, hvotes, hpure⟩ := Eff.bind_eq_ok.mp h
    obtain ⟨-, rfl⟩ := Eff.pure_eq_ok.mp hpure
    exact appendVotes_eq_ok call history delta hvotes
  · obtain ⟨hfalse, -⟩ := Eff.pure_eq_ok.mp h
    cases hfalse

theorem record_eq_ok {d d' : GateDecision} {s s' : Store}
    (h : record call delta d s = (.ok d', s')) (happrove : d'.decision = "approve") :
    d = d' ∧ s'.audit = s.audit ++ [gateEntry call delta d] := by
  obtain h | ⟨fault, t, -, -, h⟩ := Eff.handle_eq_ok.mp h
  · obtain ⟨_, t, hgate, hpure⟩ := Eff.bind_eq_ok.mp h
    obtain ⟨rfl, rfl⟩ := Eff.pure_eq_ok.mp hpure
    exact ⟨rfl, by rw [writing_eq_ok hgate]⟩
  · obtain ⟨rfl, -⟩ := Eff.pure_eq_ok.mp h
    exact absurd happrove (by decide)

theorem passes_of_approve (h : (verdict call history delta).decision = "approve") :
    ∀ v ∈ votes, passes call history delta v = true := by
  unfold verdict at h
  intro v _
  cases heval : passes call history delta .evalGaming with
  | false => simp [heval] at h
  | true =>
      cases houtcome : passes call history delta .outcome with
      | false => simp [heval, houtcome] at h
      | true =>
          cases hgoodhart : passes call history delta .goodhart with
          | false => simp [heval, houtcome, hgoodhart] at h
          | true =>
              cases hhuman : passes call history delta .human with
              | false => simp [heval, houtcome, hgoodhart, hhuman] at h
              | true => cases v <;> assumption

theorem evaluate_approves {d : GateDecision} {s s' : Store}
    (h : evaluate call history delta s = (.ok d, s')) (happrove : d.decision = "approve") :
    (∀ v ∈ votes, passes call history delta v = true) ∧ Approved call s'.audit := by
  obtain ⟨persisted, t, hpersist, hrest⟩ := Eff.bind_eq_ok.mp h
  cases persisted with
  | false =>
      obtain ⟨rfl, -⟩ := Eff.pure_eq_ok.mp hrest
      exact absurd happrove (by decide)
  | true =>
      obtain ⟨rfl, hgate⟩ := record_eq_ok call delta hrest happrove
      have hpasses := passes_of_approve call history delta happrove
      refine ⟨hpasses, fun v hv => ?_, ?_⟩
      · refine ⟨voteEntry call history delta v, ?_, rfl, rfl, rfl, ?_⟩
        · rw [hgate, persistVotes_eq_ok call history delta hpersist]
          simp only [List.mem_append, List.mem_map]
          exact .inl (.inr ⟨v, hv, rfl⟩)
        · simp [voteEntry, hpasses v hv]
      · refine ⟨gateEntry call delta (verdict call history delta), ?_, rfl, ?_, happrove⟩
        · rw [hgate]
          simp
        · simp [gateEntry, happrove]

theorem recentHistory_append {log : List AuditEntry} {e : AuditEntry} (h : e.event ≠ "promoted") :
    recentHistory (log ++ [e]) = recentHistory log := by
  simp [recentHistory, List.filterMap_append, h]

theorem runAfterStaging_approves {d : GateDecision} {s s' : Store}
    (h : runAfterStaging call s = (.ok d, s')) (happrove : d.decision = "approve") :
    Passing call s.audit ∧ Approved call s'.audit := by
  unfold runAfterStaging at h
  obtain ⟨_, t, hstaged, hafter⟩ := Eff.bind_eq_ok.mp h
  obtain ⟨_, u, hsandboxed, hrest⟩ := Eff.bind_eq_ok.mp hafter
  clear h hafter
  have ht : t = s := writing_eq_ok hstaged
  have hu : u = { t with audit := t.audit ++ [entry call "sandboxed" "pending" ""] } :=
    writing_eq_ok hsandboxed
  have hreject : ∀ reason v, reject call reason v ≠ (.ok d, s') := by
    intro reason v hr
    obtain ⟨_, w, -, hpure⟩ := Eff.bind_eq_ok.mp hr
    obtain ⟨rfl, -⟩ := Eff.pure_eq_ok.mp hpure
    simp at happrove
  split at hrest
  · exact absurd hrest (hreject _ _)
  · split at hrest
    · exact absurd hrest (hreject _ _)
    · split at hrest
      · exact absurd hrest Eff.raise_ne_ok
      · cases hdelta : call.metricDelta with
        | none =>
            rw [hdelta] at hrest
            exact absurd hrest Eff.raise_ne_ok
        | some delta =>
            rw [hdelta] at hrest
            obtain ⟨v, w, hread, heval⟩ := Eff.bind_eq_ok.mp hrest
            obtain ⟨rfl, rfl⟩ := Eff.read_eq_ok.mp hread
            obtain ⟨hpasses, happroved⟩ := evaluate_approves call _ delta heval happrove
            refine ⟨⟨delta, hdelta, ?_⟩, happroved⟩
            rw [hu, ht] at hpasses
            rwa [recentHistory_append (by simp [entry])] at hpasses

/-! ## What a promotion does to the files -/

def withBackup (s : Store) : Store :=
  { s with backups := Function.update s.backups call.editId (some (s.target.getD [])) }

def withTarget (s : Store) : Store :=
  { s with
    target := some call.candidate
    live := ⟨call.editId, s.target, call.candidate⟩ :: s.live
    retired := s.retired.filter (· ≠ call.candidate) }

def withSnapshot (s : Store) : Store :=
  { s with
    snapshots := Function.update s.snapshots call.editId (some ⟨call.editId, call.now, 0⟩) }

/-- The write of the target is the only one after which an exception leaves the promotion without a
snapshot. -/
theorem publish_cases (s : Store) :
    (publish call s).2 = s ∨ (publish call s).2 = withBackup call s ∨
      ((publish call s).2 = withTarget call (withBackup call s) ∧
        ((∃ fault, call.fates .target = .raises fault true) ∨
          ∃ fault, call.fates .snapshot = .raises fault false)) ∨
      (publish call s).2 = withSnapshot call (withTarget call (withBackup call s)) := by
  unfold publish
  obtain h | ⟨fault, hfate, h⟩ | ⟨fault, hfate, h⟩ :=
    writing_cases (call.fates .backup) (withBackup call) s
  · rw [Eff.bind_of_ok (m := writeBackup call) h]
    obtain h' | ⟨fault, hfate, h'⟩ | ⟨fault, hfate, h'⟩ :=
      writing_cases (call.fates .target) (withTarget call) (withBackup call s)
    · rw [Eff.bind_of_ok (m := writeTarget call) h']
      obtain h'' | ⟨fault, hfate, h''⟩ | ⟨fault, hfate, h''⟩ :=
        writing_cases (call.fates .snapshot) (withSnapshot call)
          (withTarget call (withBackup call s))
      · exact .inr (.inr (.inr (congrArg Prod.snd h'')))
      · exact .inr (.inr (.inr (congrArg Prod.snd h'')))
      · exact .inr (.inr (.inl ⟨congrArg Prod.snd h'', .inr ⟨fault, hfate⟩⟩))
    · rw [Eff.bind_of_error (m := writeTarget call) h']
      exact .inr (.inr (.inl ⟨rfl, .inl ⟨fault, hfate⟩⟩))
    · rw [Eff.bind_of_error (m := writeTarget call) h']
      exact .inr (.inl rfl)
  · rw [Eff.bind_of_error (m := writeBackup call) h]
    exact .inr (.inl rfl)
  · rw [Eff.bind_of_error (m := writeBackup call) h]
    exact .inl rfl

/-- The step lemma of a promotion: it adds to the audit log only, or it publishes what the log then
holds as approved. -/
theorem promoteCandidate_cases (s : Store) :
    AuditOnly s (promoteCandidate call s).2 ∨
      ∃ s₁, AuditOnly s s₁ ∧ Passing call s.audit ∧ Approved call s₁.audit ∧
        (promoteCandidate call s).2 = (publish call s₁).2 := by
  unfold promoteCandidate
  split
  · exact .inl (AuditOnly.refl s)
  · split
    · exact .inl (AuditOnly.refl s)
    · have happend := @append_moves (call.fates .proposed) (entry call "proposed" "pending" "") s
      cases hproposed : appendAuditEntry (call.fates .proposed)
          (entry call "proposed" "pending" "") s with
      | mk r t =>
          rw [hproposed] at happend
          cases r with
          | error fault =>
              rw [Eff.bind_of_error hproposed]
              exact .inl happend
          | ok u =>
              rw [Eff.bind_of_ok hproposed]
              have ht := writing_eq_ok hproposed
              have hhistory : recentHistory t.audit = recentHistory s.audit := by
                rw [ht]
                exact recentHistory_append (by simp [entry])
              split
              · exact .inl (happend.trans (reject_moves call _ t))
              · have hmoves := runAfterStaging_moves call t
                cases hrun : runAfterStaging call t with
                | mk r v =>
                    rw [hrun] at hmoves
                    cases r with
                    | error fault =>
                        rw [Eff.bind_of_error hrun]
                        exact .inl (happend.trans hmoves)
                    | ok d =>
                        rw [Eff.bind_of_ok hrun]
                        by_cases happrove : d.decision = "approve"
                        · rw [if_pos happrove]
                          obtain ⟨hpassing, happroved⟩ :=
                            runAfterStaging_approves call hrun happrove
                          refine .inr ⟨v, happend.trans hmoves, ?_, happroved, ?_⟩
                          · unfold Passing at hpassing ⊢
                            rwa [hhistory] at hpassing
                          · cases hpublish : publish call v with
                            | mk r w =>
                                cases r with
                                | error fault => rw [Eff.bind_of_error hpublish]
                                | ok u =>
                                    rw [Eff.bind_of_ok hpublish]
                                    rfl
                        · rw [if_neg happrove]
                          exact .inl (happend.trans hmoves)

end

/-! ## What a rollback does to the files -/

/-- Only the audit log and the attempt counts of the snapshots differ. -/
structure Calm (s s' : Store) : Prop where
  target : s'.target = s.target
  backups : s'.backups = s.backups
  rolled : s'.rolled = s.rolled
  live : s'.live = s.live
  retired : s'.retired = s.retired
  snapshots : ∀ q, (s'.snapshots q).map (·.backup) = (s.snapshots q).map (·.backup)

theorem Calm.refl (s : Store) : Calm s s := ⟨rfl, rfl, rfl, rfl, rfl, fun _ => rfl⟩

theorem Calm.trans {s t u : Store} (h : Calm s t) (h' : Calm t u) : Calm s u :=
  ⟨h'.target.trans h.target, h'.backups.trans h.backups, h'.rolled.trans h.rolled,
    h'.live.trans h.live, h'.retired.trans h.retired,
    fun q => (h'.snapshots q).trans (h.snapshots q)⟩

theorem AuditOnly.calm {s s' : Store} (h : AuditOnly s s') : Calm s s' := by
  obtain ⟨extra, rfl⟩ := h
  exact ⟨rfl, rfl, rfl, rfl, rfl, fun _ => rfl⟩

section

variable (call : RollbackCall)

theorem countAttempt_calm : Eff.Moves Calm (countAttempt call) := by
  refine @Eff.moves_handle _ _ _ _ Calm (fun _ _ _ => Calm.trans) _ _ ?_
    fun _ => Eff.moves_pure Calm.refl _
  refine writing_moves Calm.refl fun s => ⟨rfl, rfl, rfl, rfl, rfl, fun q => ?_⟩
  by_cases hq : q = call.proposalId
  · subst hq
    simp only [Function.update_self, Option.map_map]
    rfl
  · simp only [Function.update_of_ne hq]

def withRolled (s : Store) : Store :=
  { s with
    snapshots := Function.update s.snapshots call.proposalId none
    rolled := Function.update s.rolled call.proposalId true
    live := s.live.filter (·.edit ≠ call.proposalId)
    retired := ((s.live.filter (·.edit = call.proposalId)).map (·.content)) ++ s.retired }

/-- How far a rollback comes: nowhere; to the backup in the target; or to the edit marked as rolled
back. -/
inductive RolledBack (s : Store) : Store → Prop
  | calm {s' : Store} (h : Calm s s') : RolledBack s s'
  | restored {s' : Store} {snap : Snapshot} {content : Content}
      (hsnap : s.snapshots call.proposalId = some snap)
      (hbackup : s.backups snap.backup = some content)
      (h : Calm { s with target := some content } s') : RolledBack s s'
  | marked {s' : Store} {snap : Snapshot} {content : Content}
      (hsnap : s.snapshots call.proposalId = some snap)
      (hbackup : s.backups snap.backup = some content)
      (h : Calm (withRolled call { s with target := some content }) s') : RolledBack s s'

theorem RolledBack.then {call : RollbackCall} {s t u : Store} (h : RolledBack call s t)
    (h' : Calm t u) : RolledBack call s u := by
  cases h with
  | calm h => exact .calm (h.trans h')
  | restored hsnap hbackup h => exact .restored hsnap hbackup (h.trans h')
  | marked hsnap hbackup h => exact .marked hsnap hbackup (h.trans h')

theorem restore_rolledBack {s : Store} {snap : Snapshot}
    (hsnap : s.snapshots call.proposalId = some snap) :
    RolledBack call s (restore call snap s).2 := by
  unfold restore
  rw [Eff.read_bind]
  cases hread : (if call.backupReadable then s.backups snap.backup else none) with
  | none => exact .calm (Calm.refl s)
  | some content =>
      have hbackup : s.backups snap.backup = some content := by
        split at hread
        · exact hread
        · cases hread
      dsimp only
      obtain h | ⟨fault, -, h⟩ | ⟨fault, -, h⟩ :=
        writing_cases call.restore (fun s => { s with target := some content }) s
      · rw [Eff.bind_of_ok (m := restoreTarget call content) h]
        obtain h' | ⟨fault, -, h'⟩ | ⟨fault, -, h'⟩ :=
          writing_cases call.mark (withRolled call) { s with target := some content }
        · rw [Eff.bind_of_ok (m := markRolled call) h']
          have haudit : Eff.Moves AuditOnly (do
              appendAuditEntry call.audit
                { editId := call.proposalId, event := "rolled_back", gateDecision := "rolled_back" }
              pure RollbackStatus.rolledBack) :=
            Eff.moves_bind (fun _ _ _ => AuditOnly.trans) append_moves
              fun _ => Eff.moves_pure AuditOnly.refl _
          exact .marked hsnap hbackup (haudit _).calm
        · rw [Eff.bind_of_error (m := markRolled call) h']
          exact .marked hsnap hbackup (Calm.refl _)
        · rw [Eff.bind_of_error (m := markRolled call) h']
          exact .restored hsnap hbackup (Calm.refl _)
      · rw [Eff.bind_of_error (m := restoreTarget call content) h]
        exact .restored hsnap hbackup (Calm.refl _)
      · rw [Eff.bind_of_error (m := restoreTarget call content) h]
        exact .calm (Calm.refl s)

theorem rollbackProposal_cases (s : Store) :
    RolledBack call s (rollbackProposal call s).2 := by
  unfold rollbackProposal
  split
  · exact .calm (Calm.refl s)
  · rw [Eff.read_bind]
    split
    · exact .calm (Calm.refl s)
    · cases hsnap : s.snapshots call.proposalId with
      | none => exact .calm (Calm.refl s)
      | some snap =>
          dsimp only
          set inner : Act RollbackStatus :=
            (if !call.snapshotReadable then Eff.raise .other
              else if call.maxAttempts ≤ snap.rollbackAttempts then pure .error
              else if rollbackWindow < call.now - snap.promotionTs then pure .windowExpired
              else restore call snap) with hinner
          have hcore : RolledBack call s (inner s).2 := by
            rw [hinner]
            split
            · exact .calm (Calm.refl s)
            · split
              · exact .calm (Calm.refl s)
              · split
                · exact .calm (Calm.refl s)
                · exact restore_rolledBack call hsnap
          cases hrun : inner s with
          | mk r t =>
              rw [hrun] at hcore
              cases r with
              | ok status =>
                  rw [Eff.handle_of_ok hrun]
                  exact hcore
              | error fault =>
                  rw [Eff.handle_of_error hrun]
                  split
                  · have hcount : Eff.Moves Calm (do
                        countAttempt call
                        pure RollbackStatus.error) :=
                      Eff.moves_bind (fun _ _ _ => Calm.trans) (countAttempt_calm call)
                        fun _ => Eff.moves_pure Calm.refl _
                    exact hcore.then (hcount t)
                  · exact hcore

end

/-! ## Runs -/

inductive Op where
  | promote (call : PromoteCall)
  | rollback (call : RollbackCall)

/-- The files and the edit ids used so far. -/
structure State where
  store : Store
  used : List String := []

/-- Edit ids are distinct. -/
inductive Step : State → Op → State → Prop
  | promote {s : State} {call : PromoteCall} (fresh : call.editId ∉ s.used) :
      Step s (.promote call) ⟨(promoteCandidate call s.store).2, call.editId :: s.used⟩
  | rollback {s : State} {call : RollbackCall} :
      Step s (.rollback call) ⟨(rollbackProposal call s.store).2, s.used⟩

/-- A promotion that can pass finds the target there, brings a content that is neither the original
nor in force, and raises nothing between the landing of the target and that of the snapshot; a
rollback takes the latest promotion in force, or one that is not in force. -/
def Orderly (original : Option Content) (s : State) : Op → Prop
  | .promote call => Passing call s.store.audit →
      s.store.target.isSome ∧
      (some call.candidate ≠ original ∧ ∀ e ∈ s.store.live, e.content ≠ call.candidate) ∧
      (∀ fault, call.fates .target ≠ .raises fault true) ∧
      ∀ fault, call.fates .snapshot ≠ .raises fault false
  | .rollback call => ∀ e rest, s.store.live = e :: rest → ∀ x ∈ rest, x.edit ≠ call.proposalId

def OrderlyStep (original : Option Content) (s : State) (op : Op) (s' : State) : Prop :=
  Step s op s' ∧ Orderly original s op

/-- The target holds what the latest promotion in force wrote, or what it found there (a rollback
that could not be marked), and so on down to the original. -/
@[grind =] def Chain (original : Option Content) : List Promotion → Option Content → Prop
  | [], target => target = original
  | e :: rest, target => (target = some e.content ∨ target = e.prior) ∧ Chain original rest e.prior

theorem Chain.mem {original target : Option Content} {live : List Promotion}
    (h : Chain original live target) :
    target = original ∨ ∃ e ∈ live, target = some e.content := by
  induction live generalizing target with
  | nil => exact .inl h
  | cons e rest ih =>
      obtain ⟨htarget | htarget, hrest⟩ := h
      · exact .inr ⟨e, by simp, htarget⟩
      · rcases ih hrest with horiginal | ⟨x, hx, hxt⟩
        · exact .inl (htarget.trans horiginal)
        · exact .inr ⟨x, by simp [hx], htarget.trans hxt⟩

structure Sound (original : Option Content) (s : State) : Prop where
  chain : Chain original s.store.live s.store.target
  backed : ∀ e ∈ s.store.live, (s.store.snapshots e.edit).map (·.backup) = some e.edit ∧
    s.store.backups e.edit = e.prior
  known : ∀ q, (s.store.snapshots q).map (·.backup) ≠ none → q ∈ s.store.live.map (·.edit)
  used : ∀ e ∈ s.store.live, e.edit ∈ s.used
  ids : (s.store.live.map (·.edit)).Nodup
  contents : (original :: s.store.live.map fun e => some e.content).Nodup
  retired : ∀ c ∈ s.store.retired, some c ≠ original ∧ ∀ e ∈ s.store.live, e.content ≠ c

theorem Sound.init (target : Option Content) : Sound target { store := { target := target } } where
  chain := rfl
  backed := by simp
  known := by simp
  used := by simp
  ids := by simp
  contents := by simp
  retired := by simp

theorem Sound.calm {original : Option Content} {s : State} {store : Store} {used : List String}
    (h : Sound original s) (hcalm : Calm s.store store) (hused : ∀ id ∈ s.used, id ∈ used) :
    Sound original ⟨store, used⟩ := by
  obtain ⟨htarget, hbackups, -, hlive, hretired, hsnapshots⟩ := hcalm
  refine ⟨?_, ?_, ?_, ?_, ?_, ?_, ?_⟩
  · rw [hlive, htarget]
    exact h.chain
  · intro e he
    rw [hlive] at he
    rw [hsnapshots, hbackups]
    exact h.backed e he
  · intro q hq
    rw [hsnapshots] at hq
    rw [hlive]
    exact h.known q hq
  · intro e he
    rw [hlive] at he
    exact hused _ (h.used e he)
  · rw [hlive]
    exact h.ids
  · rw [hlive]
    exact h.contents
  · rw [hlive, hretired]
    exact h.retired

theorem Sound.push {original : Option Content} {s : State} {call : PromoteCall}
    (h : Sound original s) (hfresh : call.editId ∉ s.used) (hsome : s.store.target.isSome)
    (hnew : some call.candidate ≠ original ∧ ∀ e ∈ s.store.live, e.content ≠ call.candidate) :
    Sound original ⟨withSnapshot call (withTarget call (withBackup call s.store)),
      call.editId :: s.used⟩ := by
  obtain ⟨content, htarget⟩ := Option.isSome_iff_exists.mp hsome
  have hne : ∀ e ∈ s.store.live, e.edit ≠ call.editId := by
    intro e he heq
    exact hfresh (heq ▸ h.used e he)
  refine ⟨⟨.inl rfl, h.chain⟩, ?_, ?_, ?_, ?_, ?_, ?_⟩
  · intro e he
    rcases List.mem_cons.mp he with rfl | he
    · simp [withSnapshot, withTarget, withBackup, htarget]
    · have := h.backed e he
      simpa [withSnapshot, withTarget, withBackup, Function.update_of_ne (hne e he)] using this
  · intro q hq
    by_cases hqe : q = call.editId
    · simp [withSnapshot, withTarget, hqe]
    · have hold : (s.store.snapshots q).map (·.backup) ≠ none := by
        simpa [withSnapshot, withTarget, withBackup, Function.update_of_ne hqe] using hq
      have := h.known q hold
      simp only [withSnapshot, withTarget, withBackup, List.map_cons, List.mem_cons]
      exact .inr this
  · intro e he
    rcases List.mem_cons.mp he with rfl | he
    · simp
    · exact List.mem_cons_of_mem _ (h.used e he)
  · change (call.editId :: s.store.live.map (·.edit)).Nodup
    refine List.nodup_cons.mpr ⟨?_, h.ids⟩
    intro hmem
    obtain ⟨e, he, heq⟩ := List.mem_map.mp hmem
    exact hne e he heq
  · change (original :: some call.candidate :: s.store.live.map fun e => some e.content).Nodup
    obtain ⟨horiginal, hrest⟩ := List.nodup_cons.mp h.contents
    refine List.nodup_cons.mpr ⟨?_, List.nodup_cons.mpr ⟨?_, hrest⟩⟩
    · intro hmem
      rcases List.mem_cons.mp hmem with heq | hmem
      · exact hnew.1 heq.symm
      · exact horiginal hmem
    · intro hmem
      obtain ⟨e, he, heq⟩ := List.mem_map.mp hmem
      exact hnew.2 e he (Option.some.inj heq)
  · intro c hc
    obtain ⟨hc, hne'⟩ := List.mem_filter.mp hc
    obtain ⟨horiginal, hlive⟩ := h.retired c hc
    refine ⟨horiginal, fun e he => ?_⟩
    rcases List.mem_cons.mp he with rfl | he
    · have hdiff : ¬ c = call.candidate := by simpa using hne'
      exact fun heq => hdiff heq.symm
    · exact hlive e he

theorem Sound.top {original : Option Content} {s : State} {call : RollbackCall}
    (h : Sound original s) (horderly : Orderly original s (.rollback call)) {snap : Snapshot}
    {content : Content} (hsnap : s.store.snapshots call.proposalId = some snap)
    (hbackup : s.store.backups snap.backup = some content) :
    ∃ e rest, s.store.live = e :: rest ∧ e.edit = call.proposalId ∧ e.prior = some content := by
  have hmem := h.known call.proposalId (by simp [hsnap])
  obtain ⟨e, he, hedit⟩ := List.mem_map.mp hmem
  cases hlive : s.store.live with
  | nil => rw [hlive] at he; cases he
  | cons x rest =>
      have hx : e = x := by
        rw [hlive] at he
        rcases List.mem_cons.mp he with rfl | he
        · rfl
        · exact absurd hedit (horderly x rest hlive e he)
      subst hx
      obtain ⟨hnamed, hprior⟩ := h.backed e (by simp [hlive])
      have hname : snap.backup = e.edit := by
        rw [hedit, hsnap] at hnamed
        rw [hedit]
        exact Option.some.inj hnamed
      rw [hname, hprior] at hbackup
      exact ⟨e, rest, rfl, hedit, hbackup⟩

theorem Sound.rollback {original : Option Content} {s : State} {call : RollbackCall}
    (h : Sound original s) (horderly : Orderly original s (.rollback call)) :
    Sound original ⟨(rollbackProposal call s.store).2, s.used⟩ := by
  cases rollbackProposal_cases call s.store with
  | calm hcalm => exact h.calm hcalm fun _ hid => hid
  | restored hsnap hbackup hcalm =>
      obtain ⟨e, rest, hlive, -, hprior⟩ := h.top horderly hsnap hbackup
      rename_i content
      have hrestored : Sound original ⟨{ s.store with target := some content }, s.used⟩ := by
        refine ⟨?_, h.backed, h.known, h.used, h.ids, h.contents, h.retired⟩
        have hchain := h.chain
        simp only [hlive] at hchain ⊢
        exact ⟨.inr hprior.symm, hchain.2⟩
      exact hrestored.calm hcalm fun _ hid => hid
  | marked hsnap hbackup hcalm =>
      obtain ⟨e, rest, hlive, hedit, hprior⟩ := h.top horderly hsnap hbackup
      rename_i content
      have hids := h.ids
      rw [hlive, List.map_cons, List.nodup_cons] at hids
      have hrest : ∀ x ∈ rest, x.edit ≠ call.proposalId := fun x hx heq =>
        hids.1 (hedit ▸ heq ▸ List.mem_map_of_mem hx)
      have hkept : s.store.live.filter (·.edit ≠ call.proposalId) = rest := by
        rw [hlive, List.filter_cons_of_neg (by simp [hedit])]
        exact List.filter_eq_self.mpr fun x hx => by simpa using hrest x hx
      have hgone : s.store.live.filter (·.edit = call.proposalId) = [e] := by
        rw [hlive, List.filter_cons_of_pos (by simp [hedit]), List.filter_eq_nil_iff.mpr]
        exact fun x hx => by simpa using hrest x hx
      have hcontents := h.contents
      simp only [hlive, List.map_cons, List.nodup_cons, List.mem_cons, not_or] at hcontents
      obtain ⟨⟨horiginal, horest⟩, hefresh, hnodup⟩ := hcontents
      have hrolled : Sound original
          ⟨withRolled call { s.store with target := some content }, s.used⟩ := by
        refine ⟨?_, ?_, ?_, ?_, ?_, ?_, ?_⟩
        · have hchain := h.chain
          rw [hlive] at hchain
          simp only [withRolled, hkept]
          rw [← hprior]
          exact hchain.2
        · intro x hx
          simp only [withRolled, hkept] at hx
          have hbacked := h.backed x (by simp [hlive, hx])
          simpa [withRolled, Function.update_of_ne (hrest x hx)] using hbacked
        · intro q hq
          by_cases hqp : q = call.proposalId
          · simp [withRolled, hqp] at hq
          · have hold := h.known q (by simpa [withRolled, Function.update_of_ne hqp] using hq)
            simp only [hlive, List.map_cons, List.mem_cons] at hold
            simp only [withRolled, hkept]
            exact hold.resolve_left fun heq => hqp (heq.trans hedit)
        · intro x hx
          simp only [withRolled, hkept] at hx
          exact h.used x (by simp [hlive, hx])
        · simp only [withRolled, hkept]
          exact hids.2
        · simp only [withRolled, hkept, List.nodup_cons]
          exact ⟨horest, hnodup⟩
        · intro c hc
          simp only [withRolled, hgone, hkept, List.map_cons, List.map_nil, List.cons_append,
            List.nil_append, List.mem_cons] at hc ⊢
          rcases hc with rfl | hc
          · refine ⟨fun heq => horiginal heq.symm, fun x hx heq => hefresh ?_⟩
            exact List.mem_map.mpr ⟨x, hx, congrArg some heq⟩
          · obtain ⟨hco, hcl⟩ := h.retired c hc
            exact ⟨hco, fun x hx => hcl x (by simp [hlive, hx])⟩
      exact hrolled.calm hcalm fun _ hid => hid

theorem AuditOnly.target {s s' : Store} (h : AuditOnly s s') : s'.target = s.target := by
  obtain ⟨extra, rfl⟩ := h
  rfl

theorem Sound.promote {original : Option Content} {s : State} {call : PromoteCall}
    (h : Sound original s) (hfresh : call.editId ∉ s.used)
    (horderly : Orderly original s (.promote call)) :
    Sound original ⟨(promoteCandidate call s.store).2, call.editId :: s.used⟩ := by
  have hused : ∀ id ∈ s.used, id ∈ call.editId :: s.used := fun id hid =>
    List.mem_cons_of_mem _ hid
  rcases promoteCandidate_cases call s.store with haudit | ⟨s₁, haudit, hpassing, -, hpublish⟩
  · exact h.calm haudit.calm hused
  · obtain ⟨hsome, hnew, htarget, hsnapshot⟩ := horderly hpassing
    have h₁ : Sound original ⟨s₁, s.used⟩ := h.calm haudit.calm fun _ hid => hid
    have hlive : s₁.live = s.store.live := haudit.calm.live
    rw [hpublish]
    rcases publish_cases call s₁ with hs | hs | ⟨-, ⟨fault, hf⟩ | ⟨fault, hf⟩⟩ | hs
    · rw [hs]
      exact h.calm haudit.calm hused
    · rw [hs]
      -- a backup alone is not named by any snapshot
      have hne : ∀ e ∈ s₁.live, e.edit ≠ call.editId := fun e he heq =>
        hfresh (heq ▸ h₁.used e he)
      refine ⟨h₁.chain, fun e he => ?_, h₁.known, fun e he => hused _ (h₁.used e he), h₁.ids,
        h₁.contents, h₁.retired⟩
      have := h₁.backed e he
      simpa [withBackup, Function.update_of_ne (hne e he)] using this
    · exact absurd hf (htarget fault)
    · exact absurd hf (hsnapshot fault)
    · rw [hs]
      exact h₁.push hfresh (haudit.target ▸ hsome) ⟨hnew.1, fun e he => hnew.2 e (hlive ▸ he)⟩

theorem Sound.step {original : Option Content} {s s' : State} {op : Op} (h : Sound original s)
    (hs : OrderlyStep original s op s') : Sound original s' := by
  obtain ⟨hstep, horderly⟩ := hs
  cases hstep with
  | promote fresh => exact h.promote fresh horderly
  | rollback => exact h.rollback horderly

/-- For every run: a promotion changes the target only by publishing what the audit log already
holds as approved. In a run whose steps meet the condition, a promotion that changed the target ends
with a snapshot that names a backup of the bytes before it; with no promotion left in force the
target holds its original content; and it holds no content of an edit rolled back and not promoted
since. -/
theorem promotions_compose {original : Option Content} {ops : List Op} {s : State}
    (hrun : Run (OrderlyStep original) { store := { target := original } } ops s) :
    (∀ call s', Step s (.promote call) s' → s'.store.target ≠ s.store.target →
      ∃ s₁, s₁.target = s.store.target ∧ Approved call s₁.audit ∧
        s'.store = (publish call s₁).2) ∧
    (∀ call s', OrderlyStep original s (.promote call) s' → s'.store.target ≠ s.store.target →
      ∃ snap, s'.store.snapshots call.editId = some snap ∧
        s'.store.backups snap.backup = s.store.target) ∧
    (s.store.live = [] → s.store.target = original) ∧
    ∀ c ∈ s.store.retired, s.store.target ≠ some c := by
  have hsound : Sound original s :=
    hrun.invariant (Sound.init original) fun _ _ _ h hs => h.step hs
  refine ⟨?_, ?_, ?_, ?_⟩
  · intro call s' hstep hchanged
    cases hstep
    rcases promoteCandidate_cases call s.store with haudit | ⟨s₁, haudit, -, happroved, hpublish⟩
    · exact absurd haudit.target hchanged
    · exact ⟨s₁, haudit.target, happroved, hpublish⟩
  · rintro call s' ⟨hstep, horderly⟩ hchanged
    cases hstep
    rcases promoteCandidate_cases call s.store with haudit | ⟨s₁, haudit, hpassing, -, hpublish⟩
    · exact absurd haudit.target hchanged
    · obtain ⟨hsome, -, htarget, hsnapshot⟩ := horderly hpassing
      obtain ⟨content, hcontent⟩ := Option.isSome_iff_exists.mp hsome
      rw [hpublish] at hchanged ⊢
      rcases publish_cases call s₁ with hs | hs | ⟨-, ⟨fault, hf⟩ | ⟨fault, hf⟩⟩ | hs
      · have hsame : (publish call s₁).2.target = s.store.target := by rw [hs]; exact haudit.target
        exact absurd hsame hchanged
      · have hsame : (publish call s₁).2.target = s.store.target := by rw [hs]; exact haudit.target
        exact absurd hsame hchanged
      · exact absurd hf (htarget fault)
      · exact absurd hf (hsnapshot fault)
      · rw [hs]
        refine ⟨⟨call.editId, call.now, 0⟩, by simp [withSnapshot], ?_⟩
        simp [withSnapshot, withTarget, withBackup, haudit.target, hcontent]
  · intro hlive
    have hchain := hsound.chain
    rw [hlive] at hchain
    exact hchain
  · intro c hc htarget
    obtain ⟨horiginal, hlive⟩ := hsound.retired c hc
    rcases hsound.chain.mem with ho | ⟨e, he, het⟩
    · exact horiginal (htarget.symm.trans ho)
    · exact hlive e he (Option.some.inj (het.symm.trans htarget))

/-! ## Two promotions rolled back in the wrong order -/

def samplePromotion (edit : String) (candidate : Content) (snapshot : Fate) : PromoteCall where
  editId := edit
  candidate := candidate
  now := 0
  enabled := true
  quorum := 4
  readable := true
  isControl := false
  sandbox := ⟨false, false, 0, false⟩
  reports := true
  metricDelta := some 1
  evalOk := true
  humanOk := true
  fates site := if site = .snapshot then snapshot else .ok

def sampleRollback (edit : String) : RollbackCall where
  proposalId := edit
  now := 0
  enabled := true
  maxAttempts := 3
  snapshotReadable := true
  backupReadable := true
  restore := .ok
  mark := .ok
  audit := .ok
  attempts := .ok

def sampleOriginal : State := { store := { target := some [] } }

/-- The state after a list of calls. -/
@[grind =] def after (s : State) : List Op → State
  | [] => s
  | .promote call :: ops => after ⟨(promoteCandidate call s.store).2, call.editId :: s.used⟩ ops
  | .rollback call :: ops => after ⟨(rollbackProposal call s.store).2, s.used⟩ ops

/-- One promotion, complete. -/
theorem promotions_compose_sample : ∃ s' : State, s'.store.target = some [1] ∧
    ∃ snap, s'.store.snapshots "p" = some snap ∧ s'.store.backups snap.backup = some [] := by
  have hstep : OrderlyStep (some []) sampleOriginal (.promote (samplePromotion "p" [1] .ok))
      (after sampleOriginal [.promote (samplePromotion "p" [1] .ok)]) := by
    refine ⟨.promote (by simp [sampleOriginal]), fun _ => ⟨rfl, ⟨by decide, ?_⟩, ?_, ?_⟩⟩
    · simp [sampleOriginal]
    · simp [samplePromotion]
    · simp [samplePromotion]
  have htarget : (after sampleOriginal [.promote (samplePromotion "p" [1] .ok)]).store.target =
      some [1] := by decide
  refine ⟨_, htarget, ?_⟩
  refine (promotions_compose Run.nil).2.1 (samplePromotion "p" [1] .ok) _ hstep ?_
  rw [htarget]
  decide

theorem rollbacks_out_of_order :
    ¬ (∀ (ops : List Op) (s : State), Run Step sampleOriginal ops s → s.store.live = [] →
        s.store.target = some []) ∧
    ¬ ∀ (s s' : State) (call : PromoteCall), Step s (.promote call) s' →
        s'.store.target ≠ s.store.target → (s'.store.snapshots call.editId).isSome := by
  constructor
  · intro h
    let ops : List Op := [.promote (samplePromotion "p" [1] .ok),
      .promote (samplePromotion "q" [2] .ok), .rollback (sampleRollback "p"),
      .rollback (sampleRollback "q")]
    have hrun : Run Step sampleOriginal ops (after sampleOriginal ops) := by
      refine (((Run.single (.promote ?_)).snoc (.promote ?_)).snoc .rollback).snoc .rollback
      · simp [sampleOriginal]
      · simp [sampleOriginal, samplePromotion]
    have hlive : (after sampleOriginal ops).store.live = [] := by decide +kernel
    have htarget : (after sampleOriginal ops).store.target = some [1] := by decide +kernel
    rw [h ops _ hrun hlive] at htarget
    exact absurd htarget (by decide)
  · intro h
    let call := samplePromotion "p" [1] (.raises .other false)
    have hstep : Step sampleOriginal (.promote call) (after sampleOriginal [.promote call]) :=
      .promote (by simp [sampleOriginal])
    have htarget : (after sampleOriginal [.promote call]).store.target = some [1] := by
      decide
    have hnone : ((after sampleOriginal [.promote call]).store.snapshots "p").isSome = false := by
      decide
    have hsome := h _ _ call hstep (by rw [htarget]; decide)
    rw [show call.editId = "p" from rfl, hnone] at hsome
    cases hsome

end TrwMcp.MetaTune
