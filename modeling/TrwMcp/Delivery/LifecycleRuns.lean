import TrwMcp.Delivery.Lifecycle
import TrwMcp.Delivery.StepRuns

/-!
# Finished states and cancellations

What one transaction may do to an operation is said once, in `Move`: where it changes a row it
raises the revision, it leaves a finished state alone, and out of a cancellation it leads only to
the cancelled state. Every run of such transactions keeps the same over its whole length.
-/

namespace TrwMcp.Delivery

open Lib

section

variable {J : Type} {id : String}

/-- The rows at which a transaction of the operation is aimed are as they were. -/
structure SameRows (id : String) (w w' : Lifecycle J) : Prop where
  row : w'.row id = w.row id
  steps : w'.journal.steps = w.journal.steps
  links : w'.links id = w.links id

theorem SameRows.refl (w : Lifecycle J) : SameRows id w w := ⟨rfl, rfl, rfl⟩

theorem SameRows.trans {w w' w'' : Lifecycle J} (h : SameRows id w w')
    (h' : SameRows id w' w'') : SameRows id w w'' :=
  ⟨h'.row.trans h.row, h'.steps.trans h.steps, h'.links.trans h.links⟩

def HasStarted (steps : Dict String StepRecord) : Prop :=
  (steps.any fun m => m.2.state = .started) = true

/-- The started steps of the second journal were started in the first. -/
def NoneBegun (steps steps' : Dict String StepRecord) : Prop :=
  ∀ effectId step, Dict.lookup steps' effectId = some step → step.state = .started →
    Dict.lookup steps effectId = some step

/-- What a transaction that changes the operation's rows may do. -/
structure Moved (id : String) (w w' : Lifecycle J) (op op' : Operation) : Prop where
  row : w.row id = some op
  row' : w'.row id = some op'
  revision : op.revision < op'.revision
  finished : op.state.isFinished = true →
    op'.state = op.state ∧ NoneBegun w.journal.steps w'.journal.steps
  cancelling : op.state = .cancelRequested → op'.state = .cancelRequested ∨ op'.state = .cancelled
  started : op'.state = .cancelRequested → HasStarted w'.journal.steps

/-- What a transaction may do. -/
def Move (id : String) (w w' : Lifecycle J) : Prop :=
  SameRows id w w' ∨ ∃ op op', Moved id w w' op op'

/-- The operation is there, and a cancellation waits for a started step. -/
def Waiting (id : String) (w : Lifecycle J) : Prop :=
  ∃ op, w.row id = some op ∧ (op.state = .cancelRequested → HasStarted w.journal.steps)

/-! ## Rows -/

theorem operation_updateOp (w : JournalWorld J) (id : String) (change : Operation → Operation)
    (hid : ∀ op, (change op).operationId = op.operationId) :
    (w.updateOp id change).store.operation id = (w.store.operation id).map change := by
  simp only [Store.operation, JournalWorld.updateOp]
  induction w.store.operations with
  | nil => rfl
  | cons op ops ih =>
      by_cases hop : op.operationId = id
      · simp [hop, hid]
      · simp [hop, ih]

theorem Moved.retired {w v : Lifecycle J} {op : Operation} {cancelled : Bool}
    (h : ∃ op', Moved id w v op op') : ∃ op', Moved id w (v.retired id cancelled) op op' := by
  obtain ⟨op', h⟩ := h
  unfold Lifecycle.retired
  split
  · exact ⟨op', h.row, h.row', h.revision, h.finished, h.cancelling, h.started⟩
  · exact ⟨op', h⟩

theorem noneBegun_set {steps : Dict String StepRecord} {effectId : String} {step : StepRecord}
    (h : step.state ≠ .started) : NoneBegun steps (Dict.set steps effectId step) := by
  intro other row hrow hstarted
  rw [Dict.lookup_set] at hrow
  split at hrow
  · obtain rfl := Option.some.inj hrow
    exact absurd hstarted h
  · exact hrow

theorem NoneBegun.trans {steps steps' steps'' : Dict String StepRecord} (h : NoneBegun steps steps')
    (h' : NoneBegun steps' steps'') : NoneBegun steps steps'' :=
  fun effectId step hstep hstarted => h effectId step (h' effectId step hstep hstarted) hstarted

theorem classified_of_not_crashed {steps : Dict String StepRecord}
    (h : (steps.any fun m => m.2.state = .started && !isAutoReplayableAfterStarted m.1) = false) :
    Dict.mapValues classifyRestart steps = steps := by
  have hrow : ∀ m ∈ steps, classifyRestart m.1 m.2 = m.2 := by
    intro m hm
    have hm := List.any_eq_false.mp h m hm
    unfold classifyRestart
    rw [if_neg]
    rintro ⟨hstarted, hauto⟩
    simp [hstarted, hauto] at hm
  unfold Dict.mapValues
  conv_rhs => rw [← List.map_id steps]
  refine List.map_congr_left fun m hm => ?_
  rw [hrow m hm]
  rfl

/-! ## The condition -/

/-- Whether the operation is in a state that it may only leave for the cancelled one, or not at
all. -/
def OperationState.settled (state : OperationState) : Bool :=
  state.isFinished || state = .cancelRequested

/-- What the callers would have to keep to: a state is marked, an effect reconciled and a crash
classified only on an operation that is neither finished nor being cancelled, unless that changes
no state; and nothing is put into the queue behind the operation's back, since a link has no
revision. -/
def RegularLife (id : String) (digests : Digests) (w : Lifecycle J) : LifeDeed → Prop
  | .markOperationState state _ => ∀ op, w.row id = some op →
      (op.state.isFinished = true → state = op.state) ∧
        (op.state = .cancelRequested → state = .cancelled)
  | .enqueueDeferred operationId deferredDigest now staleLeaseMs queueDepthMax alive =>
      w.enqueued operationId deferredDigest now staleLeaseMs queueDepthMax alive = none ∨
        (operationId ≠ id ∧
          ∀ link ∈ w.links id, w.journal.store.reap now staleLeaseMs alive link = link)
  | .recoverAfterCrash now alive => ∀ op, w.row id = some op → op.state.settled = true →
      op.leaseValid now alive = true ∨
        (w.journal.steps.any fun m =>
          m.2.state = .started && !isAutoReplayableAfterStarted m.1) = false
  | .reconcileEffect auth _ _ _ => ∀ op, w.row id = some op → op.state.settled = true →
      auth.holds digests op = false
  | _ => True

variable {digests : Digests}

/-! ## Transactions -/

theorem move_beginStep {w : Lifecycle J} (effectId : String) (pid now staleLeaseMs : Int) :
    Move id w (w.exec id digests (.beginStep effectId pid now staleLeaseMs)) := by
  simp only [Lifecycle.exec, JournalWorld.beginStep]
  split
  · exact .inl (.refl w)
  · split
    · exact .inl (.refl w)
    · next op hop =>
        split
        · exact .inl (.refl w)
        · next hfinished =>
            split
            · exact .inl (.refl w)
            · next hcancel =>
                have hrow := operation_updateOp w.journal id (fun op =>
                  { op with
                      state := if op.state = .pending then .running else op.state
                      revision := op.revision + 1
                      updatedUtcMs := now
                      leaseOwner := deliveryJournalOwner
                      leasePid := if pid = 0 then op.leasePid else pid
                      leaseExpiryUtcMs := now + staleLeaseMs }) fun _ => rfl
                rw [hop] at hrow
                refine .inr ⟨op, _, hop, hrow, ?_, fun h => absurd h hfinished,
                  fun h => absurd h hcancel, fun h => ?_⟩
                · exact Nat.lt_succ_self op.revision
                change (if op.state = .pending then OperationState.running else op.state) =
                  .cancelRequested at h
                split at h
                · cases h
                · exact absurd h hcancel

theorem move_finalizeStep {w : Lifecycle J} (effectId : String) (state : StepState)
    (findingCode : String) (now : Int) :
    Move id w (w.exec id digests (.finalizeStep effectId state findingCode now)) := by
  simp only [Lifecycle.exec, Lifecycle.finalizeStep]
  split
  · exact .inl (.refl w)
  · next hstate =>
      rw [not_or] at hstate
      unfold JournalWorld.finalizeStep
      split
      · exact .inl (.refl w)
      · next op hop =>
          simp only [Option.map_some, Option.getD_some]
          generalize hattempt : ((Dict.lookup w.journal.steps effectId).map (·.attempt)).getD 1 =
            attempt
          generalize hsteps : Dict.set w.journal.steps effectId ⟨state, attempt, findingCode⟩ =
            steps
          generalize hremaining : (steps.any fun m => m.1 ≠ effectId && m.2.state = .started) =
            remaining
          have hrow := operation_updateOp w.journal id (fun o =>
            { o with
                state := if op.state = .cancelRequested && !remaining then .cancelled else o.state
                revision := o.revision + 1
                updatedUtcMs := now
                terminalUtcMs := if op.state = .cancelRequested && !remaining then now
                  else o.terminalUtcMs }) fun _ => rfl
          rw [hop] at hrow
          refine .inr ⟨op, Moved.retired ?_⟩
          refine ⟨_, hop, hrow, Nat.lt_succ_self _, fun hfinished => ⟨?_, ?_⟩, fun hcancel => ?_,
            fun hcancel => ?_⟩
          · have hne : op.state ≠ .cancelRequested := by
              intro h
              rw [h] at hfinished
              cases hfinished
            simp [hne]
          · rw [← hsteps]
            exact noneBegun_set hstate.1
          · simp only [hcancel, decide_true, Bool.true_and]
            cases remaining <;> simp
          · simp only at hcancel
            split at hcancel
            · cases hcancel
            · next hremains =>
                rw [hcancel] at hremains
                have hremaining' : remaining = true := by simpa using hremains
                rw [hremaining'] at hremaining
                obtain ⟨m, hm, hstarted⟩ := List.any_eq_true.mp hremaining
                exact List.any_eq_true.mpr ⟨m, hm, (Bool.and_eq_true_iff.mp hstarted).2⟩

theorem move_markOperationState {w : Lifecycle J} (hwaiting : Waiting id w)
    (state : OperationState) (now : Int)
    (hregular : RegularLife id digests w (.markOperationState state now)) :
    Move id w (w.exec id digests (.markOperationState state now)) := by
  obtain ⟨op, hop, -⟩ := hwaiting
  obtain ⟨hfinal, hcancel⟩ := hregular op hop
  simp only [Lifecycle.exec]
  split
  · next hmarked =>
      have hrow := operation_updateOp w.journal id (fun op =>
        { op with
            state
            revision := op.revision + 1
            updatedUtcMs := now
            terminalUtcMs := if state.isFinished then now else op.terminalUtcMs }) fun _ => rfl
      rw [show w.journal.store.operation id = some op from hop] at hrow
      have hjournal : (w.markOperationState id state now).journal =
          w.journal.markOperationState id state now := by
        simp only [Lifecycle.markOperationState, hop, Option.isNone_some, Bool.false_eq_true,
          if_false]
        split <;> rfl
      refine .inr ⟨op, _, hop, (congrArg (·.store.operation id) hjournal).trans hrow,
        Nat.lt_succ_self _, fun hfinished => ⟨hfinal hfinished, ?_⟩,
        fun h => .inr (hcancel h), ?_⟩
      · rw [hjournal]
        exact fun _ _ hstep _ => hstep
      · rintro rfl
        cases (by decide : OperationState.cancelRequested ∉ markedStates) hmarked
  · exact .inl (.refl w)

theorem links_append_other {queue : List QueueLink} {link : QueueLink}
    (h : link.operationId ≠ id) :
    ((queue ++ [link]).filter fun link => link.operationId = id) =
      queue.filter fun link => link.operationId = id := by
  simp [List.filter_append, h]

theorem links_reaped {queue : List QueueLink} {reap : QueueLink → QueueLink}
    (hid : ∀ link, (reap link).operationId = link.operationId)
    (h : ∀ link ∈ queue.filter (fun link => link.operationId = id), reap link = link) :
    ((queue.map reap).filter fun link => link.operationId = id) =
      queue.filter fun link => link.operationId = id := by
  induction queue with
  | nil => rfl
  | cons link queue ih =>
      rw [List.map_cons, List.filter_cons, List.filter_cons, hid]
      by_cases hlink : link.operationId = id
      · have hhead := h link (by simp [hlink])
        have htail := ih fun other hother => h other (by
          rw [List.filter_cons, if_pos (by simpa using hlink)]
          exact List.mem_cons_of_mem _ hother)
        rw [if_pos (by simpa using hlink), hhead, htail, if_pos (by simpa using hlink)]
      · have htail := ih fun other hother => h other (by
          rwa [List.filter_cons, if_neg (by simpa using hlink)])
        rw [if_neg (by simpa using hlink), htail, if_neg (by simpa using hlink)]

theorem reap_operationId (s : Store) (now staleLeaseMs : Int) (alive : Int → Bool)
    (link : QueueLink) : (s.reap now staleLeaseMs alive link).operationId = link.operationId := by
  unfold Store.reap
  split
  · rfl
  · split
    · rfl
    · split
      · rfl
      · split <;> rfl

theorem enqueued_links {w : Lifecycle J} {operationId deferredDigest : String}
    {now staleLeaseMs : Int} {queueDepthMax : Nat} {alive : Int → Bool} {queue : List QueueLink}
    {found : Option QueueLink}
    (h : w.enqueued operationId deferredDigest now staleLeaseMs queueDepthMax alive =
      some (queue, found)) :
    ∃ link : QueueLink, link.operationId = operationId ∧
      queue = w.queue.map (w.journal.store.reap now staleLeaseMs alive) ++ [link] := by
  unfold Lifecycle.enqueued at h
  simp only at h
  split at h
  · cases h
  · split at h
    · cases h
    · have h := Option.some.inj h
      exact ⟨_, rfl, (Prod.mk.inj h).1.symm⟩

theorem move_enqueueDeferred {w : Lifecycle J} (operationId deferredDigest : String)
    (now staleLeaseMs : Int) (queueDepthMax : Nat) (alive : Int → Bool)
    (hregular : RegularLife id digests w
      (.enqueueDeferred operationId deferredDigest now staleLeaseMs queueDepthMax alive)) :
    Move id w (w.exec id digests
      (.enqueueDeferred operationId deferredDigest now staleLeaseMs queueDepthMax alive)) := by
  simp only [Lifecycle.exec, Lifecycle.enqueueDeferred]
  rcases hregular with hnone | ⟨hother, hreap⟩
  · rw [hnone]
    exact .inl (.refl w)
  · have hlinks : ∀ {queue found},
        w.enqueued operationId deferredDigest now staleLeaseMs queueDepthMax alive =
          some (queue, found) → SameRows id w { w with queue } := by
      intro queue found hqueue
      obtain ⟨link, hlink, rfl⟩ := enqueued_links hqueue
      refine ⟨rfl, rfl, ?_⟩
      change List.filter _ _ = _
      rw [links_append_other (hlink ▸ hother)]
      exact links_reaped (reap_operationId _ now staleLeaseMs alive) hreap
    split
    · exact .inl (.refl w)
    · next hqueue => exact .inl (hlinks hqueue)
    · next hqueue =>
        rw [if_neg hother]
        exact .inl (hlinks hqueue)

theorem moved_applyCrashRecovery {w : Lifecycle J} {op : Operation} (hop : w.row id = some op)
    (now : Int)
    (hcrashed : op.state.settled = true → (w.journal.steps.any fun m =>
      m.2.state = .started && !isAutoReplayableAfterStarted m.1) = false)
    (hwaiting : op.state = .cancelRequested → HasStarted w.journal.steps) :
    ∃ op', Moved id w { w with journal := w.journal.applyCrashRecovery id now } op op' := by
  generalize hany : (w.journal.steps.any fun m =>
    m.2.state = .started && !isAutoReplayableAfterStarted m.1) = crashed at hcrashed
  have hrow := operation_updateOp w.journal id (fun op =>
    { op with
        state := if crashed then .indeterminate else op.state
        revision := op.revision + 1
        updatedUtcMs := now
        leaseOwner := ""
        leasePid := 0
        leaseExpiryUtcMs := 0 }) fun _ => rfl
  rw [show w.journal.store.operation id = some op from hop] at hrow
  have hjournal : w.journal.applyCrashRecovery id now =
      { w.journal.updateOp id fun op =>
          { op with
              state := if crashed then .indeterminate else op.state
              revision := op.revision + 1
              updatedUtcMs := now
              leaseOwner := ""
              leasePid := 0
              leaseExpiryUtcMs := 0 } with
        steps := Dict.mapValues classifyRestart w.journal.steps
        events := w.journal.events ++ [.reconcileNotApplied] } := by
    unfold JournalWorld.applyCrashRecovery
    rw [hany]
  have hsteps : crashed = false → Dict.mapValues classifyRestart w.journal.steps =
      w.journal.steps := fun h => classified_of_not_crashed (hany.trans h)
  rw [hjournal]
  refine ⟨_, hop, hrow, Nat.lt_succ_self _, fun hfinished => ?_, fun hcancel => ?_,
    fun hcancel => ?_⟩
  · have hfalse := hcrashed (by simp [OperationState.settled, hfinished])
    refine ⟨by simp [hfalse], fun effectId step hstep _ => ?_⟩
    have hlookup : Dict.lookup (Dict.mapValues classifyRestart w.journal.steps) effectId =
        some step := hstep
    rwa [hsteps hfalse] at hlookup
  · have hfalse := hcrashed (by simp [OperationState.settled, hcancel])
    exact .inl (by simp [hfalse, hcancel])
  · cases crashed with
    | true => cases hcancel
    | false =>
        change HasStarted (Dict.mapValues classifyRestart w.journal.steps)
        rw [hsteps rfl]
        exact hwaiting hcancel

theorem move_recoverAfterCrash {w : Lifecycle J} (hwaiting : Waiting id w) (now : Int)
    (alive : Int → Bool) (hregular : RegularLife id digests w (.recoverAfterCrash now alive)) :
    Move id w (w.exec id digests (.recoverAfterCrash now alive)) := by
  obtain ⟨op, hop, hstarted⟩ := hwaiting
  simp only [Lifecycle.exec, Lifecycle.recoverAfterCrash, hop]
  split
  · exact .inl (.refl w)
  · next hlease =>
      obtain ⟨op', hmoved⟩ := moved_applyCrashRecovery hop now
        (fun hsettled => (hregular op hop hsettled).resolve_left hlease) hstarted
      exact .inr ⟨op, op', hmoved⟩

theorem move_takeover {w : Lifecycle J} (hwaiting : Waiting id w) (auth : Authority)
    (newOwner : String) (newPid now staleLeaseMs : Int) (alive : Int → Bool) :
    Move id w (w.exec id digests (.takeover auth newOwner newPid now staleLeaseMs alive)) := by
  obtain ⟨op, hop, hstarted⟩ := hwaiting
  have hop' : w.journal.store.operation id = some op := hop
  simp only [Lifecycle.exec, JournalWorld.takeover, hop']
  split
  · exact .inl (.refl w)
  · split
    · exact .inl (.refl w)
    · have hrow := operation_updateOp w.journal id (fun op =>
        { op with
            revision := op.revision + 1
            updatedUtcMs := now
            leaseOwner := newOwner
            leasePid := newPid
            leaseExpiryUtcMs := now + staleLeaseMs }) fun _ => rfl
      rw [hop'] at hrow
      exact .inr ⟨op, _, hop, hrow, Nat.lt_succ_self _,
        fun _ => ⟨rfl, fun _ _ hstep _ => hstep⟩, fun h => .inl h, hstarted⟩

theorem move_resume {w : Lifecycle J} (hwaiting : Waiting id w) (auth : Authority)
    (newPid now staleLeaseMs : Int) (alive : Int → Bool) :
    Move id w (w.exec id digests (.resume auth newPid now staleLeaseMs alive)) := by
  obtain ⟨op, hop, hstarted⟩ := hwaiting
  have hop' : w.journal.store.operation id = some op := hop
  simp only [Lifecycle.exec, JournalWorld.resume, hop']
  split
  · exact .inl (.refl w)
  · next hrefused =>
      have hsettled : op.state.settled = false := by
        simp only [Bool.or_eq_true, not_or, Bool.not_eq_true, decide_eq_false_iff_not] at hrefused
        obtain ⟨⟨⟨-, hfinished⟩, hcancel⟩, -⟩ := hrefused
        simp [OperationState.settled, hfinished, hcancel]
      have hnot : ∀ {P : Prop}, op.state.settled = true → P := fun h => by
        rw [hsettled] at h
        cases h
      have hmoved : ∃ v : JournalWorld J,
          (v = w.journal ∨ ∃ op', Moved id w { w with journal := v } op op') ∧
          v = if op.leaseValid now alive then w.journal
            else w.journal.applyCrashRecovery id now := by
        split
        · exact ⟨_, .inl rfl, rfl⟩
        · exact ⟨_, .inr (moved_applyCrashRecovery hop now hnot hstarted), rfl⟩
      obtain ⟨v, hv, hclassified⟩ := hmoved
      rw [← hclassified]
      have hgrant : ∀ op₁, v.store.operation id = some op₁ → op.revision ≤ op₁.revision →
          (op₁.state = .cancelRequested → HasStarted v.steps) →
          Move id w
            { w with
                journal :=
                  { v.updateOp id fun op =>
                      { op with
                          revision := op.revision + 1
                          updatedUtcMs := now
                          leaseOwner := deliveryJournalOwner
                          leasePid := newPid
                          leaseExpiryUtcMs := now + staleLeaseMs } with
                    events := v.events ++ [.resume] } } := by
        intro op₁ hop₁ hrevision hstarted₁
        have hrow := operation_updateOp v id (fun op =>
          { op with
              revision := op.revision + 1
              updatedUtcMs := now
              leaseOwner := deliveryJournalOwner
              leasePid := newPid
              leaseExpiryUtcMs := now + staleLeaseMs }) fun _ => rfl
        rw [hop₁] at hrow
        refine .inr ⟨op, _, hop, hrow, Nat.lt_succ_of_le hrevision, fun hfinished => ?_,
          fun hcancel => ?_, hstarted₁⟩
        · exact hnot (by simp [OperationState.settled, hfinished])
        · exact hnot (by simp [OperationState.settled, hcancel])
      rcases hv with rfl | ⟨op₁, hmoved⟩
      · split
        · exact .inl (.refl w)
        · exact hgrant op hop' le_rfl hstarted
      · split
        · exact .inr ⟨op, op₁, hmoved⟩
        · exact hgrant op₁ hmoved.row' hmoved.revision.le hmoved.started

theorem move_reconcileEffect {w : Lifecycle J} (hwaiting : Waiting id w) (auth : Authority)
    (effectId : String) (applied : Bool) (now : Int)
    (hregular : RegularLife id digests w (.reconcileEffect auth effectId applied now)) :
    Move id w (w.exec id digests (.reconcileEffect auth effectId applied now)) := by
  obtain ⟨op, hop, -⟩ := hwaiting
  have hop' : w.journal.store.operation id = some op := hop
  simp only [Lifecycle.exec, JournalWorld.reconcileEffect, hop']
  split
  · next op₁ step hop₁ hstep =>
      obtain rfl := Option.some.inj hop₁
      split
      · exact .inl (.refl w)
      · next hauth =>
          split
          · exact .inl (.refl w)
          · have hnot : ∀ {P : Prop}, op.state.settled = true → P := fun h => by
              simp [hregular op hop h] at hauth
            have hrow := operation_updateOp w.journal id (fun op =>
              { op with state := .running, revision := op.revision + 1, updatedUtcMs := now })
              fun _ => rfl
            rw [hop'] at hrow
            refine .inr ⟨op, _, hop, hrow, Nat.lt_succ_self _, fun hfinished => ?_,
              fun hcancel => ?_, fun h => by cases h⟩
            · exact hnot (by simp [OperationState.settled, hfinished])
            · exact hnot (by simp [OperationState.settled, hcancel])
  · exact .inl (.refl w)

theorem move_requestCancel {w : Lifecycle J} (hwaiting : Waiting id w) (auth : Authority)
    (now : Int) : Move id w (w.exec id digests (.requestCancel auth now)) := by
  obtain ⟨op, hop, -⟩ := hwaiting
  have hop' : w.journal.store.operation id = some op := hop
  simp only [Lifecycle.exec, Lifecycle.requestCancel, hop]
  split
  · exact .inl (.refl w)
  · next hrefused =>
      simp only [Bool.or_eq_true, not_or, Bool.not_eq_true] at hrefused
      generalize hany : (w.journal.steps.any fun m => m.2.state = .started) = hasStarted
      have hrow := operation_updateOp w.journal id (fun op =>
        { op with
            state := if hasStarted then .cancelRequested else .cancelled
            revision := op.revision + 1
            updatedUtcMs := now
            terminalUtcMs := if hasStarted then 0 else now }) fun _ => rfl
      rw [hop'] at hrow
      have hjournal : w.journal.requestCancel id digests auth now =
          { w.journal.updateOp id fun op =>
              { op with
                  state := if hasStarted then .cancelRequested else .cancelled
                  revision := op.revision + 1
                  updatedUtcMs := now
                  terminalUtcMs := if hasStarted then 0 else now } with
            events := w.journal.events ++ [.requestCancel] } := by
        simp only [JournalWorld.requestCancel, hop', hrefused.1, hrefused.2, Bool.or_self,
          Bool.false_eq_true, if_false, hany]
      rw [hjournal]
      refine .inr ⟨op, _, hop, hrow, Nat.lt_succ_self _, fun hfinished => ?_, fun _ => ?_,
        fun hcancel => ?_⟩
      · rw [hrefused.2] at hfinished
        cases hfinished
      · cases hasStarted
        · exact .inr rfl
        · exact .inl rfl
      · cases hasStarted with
        | false => cases hcancel
        | true => exact hany

theorem move_exec {w : Lifecycle J} (hwaiting : Waiting id w) {deed : LifeDeed}
    (hregular : RegularLife id digests w deed) : Move id w (w.exec id digests deed) := by
  cases deed with
  | beginStep effectId pid now staleLeaseMs => exact move_beginStep effectId pid now staleLeaseMs
  | finalizeStep effectId state findingCode now =>
      exact move_finalizeStep effectId state findingCode now
  | markOperationState state now => exact move_markOperationState hwaiting state now hregular
  | enqueueDeferred operationId deferredDigest now staleLeaseMs queueDepthMax alive =>
      exact move_enqueueDeferred operationId deferredDigest now staleLeaseMs queueDepthMax alive
        hregular
  | recoverAfterCrash now alive => exact move_recoverAfterCrash hwaiting now alive hregular
  | takeover auth newOwner newPid now staleLeaseMs alive =>
      exact move_takeover hwaiting auth newOwner newPid now staleLeaseMs alive
  | resume auth newPid now staleLeaseMs alive =>
      exact move_resume hwaiting auth newPid now staleLeaseMs alive
  | reconcileEffect auth effectId applied now =>
      exact move_reconcileEffect hwaiting auth effectId applied now hregular
  | requestCancel auth now => exact move_requestCancel hwaiting auth now

/-! ## Runs -/

/-- One transaction that meets the condition. -/
def RegularLifeStep (id : String) (digests : Digests) (w : Lifecycle J) (deed : LifeDeed)
    (w' : Lifecycle J) : Prop :=
  w' = w.exec id digests deed ∧ RegularLife id digests w deed

theorem Waiting.claimed {op : Operation} (hid : op.operationId = id)
    (hpending : op.state = .pending) : Waiting id (Lifecycle.claimed op : Lifecycle J) := by
  refine ⟨op, ?_, fun h => ?_⟩
  · simp [Lifecycle.row, Lifecycle.claimed, Store.operation, hid]
  · rw [hpending] at h
    cases h

theorem Waiting.move {w w' : Lifecycle J} (h : Waiting id w) (hmove : Move id w w') :
    Waiting id w' := by
  rcases hmove with hsame | ⟨op, op', hmoved⟩
  · obtain ⟨op, hop, hstarted⟩ := h
    exact ⟨op, hsame.row.trans hop, hsame.steps ▸ hstarted⟩
  · exact ⟨op', hmoved.row', hmoved.started⟩

/-- How the operation stands to what it was. -/
structure Since (id : String) (w w' : Lifecycle J) (op op' : Operation) : Prop where
  row : w.row id = some op
  row' : w'.row id = some op'
  finished : op.state.isFinished = true →
    op'.state = op.state ∧ NoneBegun w.journal.steps w'.journal.steps
  cancelling : op.state = .cancelRequested → op'.state = .cancelRequested ∨ op'.state = .cancelled
  revision : op.revision < op'.revision ∨ SameRows id w w'

theorem Since.refl {w : Lifecycle J} {op : Operation} (hop : w.row id = some op) :
    Since id w w op op :=
  ⟨hop, hop, fun _ => ⟨rfl, fun _ _ hstep _ => hstep⟩, fun h => .inl h, .inr (.refl w)⟩

theorem Since.move {w v v' : Lifecycle J} {op op₁ : Operation} (h : Since id w v op op₁)
    (hmove : Move id v v') : ∃ op', Since id w v' op op' := by
  rcases hmove with hsame | ⟨op₂, op', hmoved⟩
  · refine ⟨op₁, h.row, hsame.row.trans h.row', ?_, h.cancelling, ?_⟩
    · intro hfinished
      rw [hsame.steps]
      exact h.finished hfinished
    · exact h.revision.imp_right fun hrows => hrows.trans hsame
  · obtain rfl := Option.some.inj (h.row'.symm.trans hmoved.row)
    refine ⟨op', h.row, hmoved.row', fun hfinished => ?_, fun hcancel => ?_, .inl ?_⟩
    · obtain ⟨hstate, hnone⟩ := h.finished hfinished
      obtain ⟨hstate', hnone'⟩ := hmoved.finished (hstate ▸ hfinished)
      exact ⟨hstate'.trans hstate, hnone.trans hnone'⟩
    · rcases h.cancelling hcancel with hstate | hstate
      · exact hmoved.cancelling hstate
      · exact .inr ((hmoved.finished (by rw [hstate]; rfl)).1.trans hstate)
    · rcases h.revision with hless | hrows
      · exact hless.trans hmoved.revision
      · obtain rfl := Option.some.inj (h.row'.symm.trans (hrows.row.trans h.row))
        exact hmoved.revision

theorem Waiting.run {w w' : Lifecycle J} {deeds : List LifeDeed} (h : Waiting id w)
    (hrun : Run (RegularLifeStep id digests) w deeds w') : Waiting id w' := by
  refine hrun.invariant (I := Waiting id) h ?_
  rintro v deed v' hv ⟨rfl, hregular⟩
  exact hv.move (move_exec hv hregular)

end

/-! ### A cancellation that is undone -/

def lifeOperation : Operation := (sampleTicket sampleId).operation plainDigests "salt" staleLease

def lifeRun (deeds : List LifeDeed) : Lifecycle Nat :=
  deeds.foldl (Lifecycle.exec sampleId plainDigests) (Lifecycle.claimed lifeOperation)

theorem lifeRun_run {step : Lifecycle Nat → LifeDeed → Lifecycle Nat → Prop}
    (deeds : List LifeDeed)
    (hstep : ∀ deed ∈ deeds, ∀ v, step v deed (v.exec sampleId plainDigests deed)) :
    Run step (Lifecycle.claimed lifeOperation) deeds (lifeRun deeds) := by
  induction deeds using List.reverseRecOn with
  | nil => exact .nil
  | append_singleton deeds deed ih =>
      rw [lifeRun, List.foldl_append]
      refine (ih fun deed' hdeed' => ?_).snoc (hstep deed (by simp) _)
      exact hstep deed' (List.mem_append_left _ hdeed')

/-- An effect is started, and the operator cancels. -/
def cancelDeeds : List LifeDeed :=
  [.beginStep "S08" 7 sampleNow staleLease, .requestCancel (sampleAuthority 2) sampleNow]

end TrwMcp.Delivery
