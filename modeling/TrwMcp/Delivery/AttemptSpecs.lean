import TrwMcp.Delivery.Attempts
import TrwMcp.Delivery.LifecycleRuns

/-!
# What a boundary writes

What each mutation that an attempt makes leaves of the operation's row and of the step rows, and
what opening and closing an effect comes to.
-/

namespace TrwMcp.Delivery

open Lib

/-! ## The operation -/

section

variable {id : String}

/-- The operation is there, and is not succeeded where it was not. -/
structure Keeps (id : String) (life life' : Lifecycle Unit) : Prop where
  there : (life.row id).isSome = true → (life'.row id).isSome = true
  succeeded : life'.inState id .succeeded = true → life.inState id .succeeded = true

theorem Keeps.refl (life : Lifecycle Unit) : Keeps id life life := ⟨fun h => h, fun h => h⟩

theorem Keeps.trans {life life' life'' : Lifecycle Unit} (h : Keeps id life life')
    (h' : Keeps id life' life'') : Keeps id life life'' :=
  ⟨fun h₀ => h'.there (h.there h₀), fun h₂ => h.succeeded (h'.succeeded h₂)⟩

theorem Keeps.of_map {life life' : Lifecycle Unit} {change : Operation → Operation}
    (hrow : life'.row id = (life.row id).map change)
    (hchange : ∀ op, life.row id = some op → (change op).state = .succeeded →
      op.state = .succeeded) : Keeps id life life' := by
  refine ⟨fun h => ?_, fun h => ?_⟩
  · rw [hrow, Option.isSome_map]
    exact h
  · rw [Lifecycle.inState, hrow] at h
    cases hop : life.row id with
    | none =>
        rw [hop] at h
        cases h
    | some op =>
        rw [hop] at h
        have hstate : (change op).state = .succeeded := by simpa using h
        simp [Lifecycle.inState, hop, hchange op hop hstate]

theorem Keeps.of_row {life life' : Lifecycle Unit} (hrow : life'.row id = life.row id) :
    Keeps id life life' :=
  have hmap : life'.row id = (life.row id).map fun op => op := by rw [hrow, Option.map_id']
  .of_map hmap fun _ _ h => h

theorem inState_of_row {life : Lifecycle Unit} {op : Operation} (hop : life.row id = some op)
    (state : OperationState) : life.inState id state = decide (op.state = state) := by
  rw [Lifecycle.inState, hop]
  rfl

theorem beginStep_spec {life : Lifecycle Unit} {journal : JournalWorld Unit} {effectId : String}
    {pid now staleLeaseMs : Int}
    (h : life.journal.beginStep id effectId pid now staleLeaseMs = some journal) :
    Keeps id life { life with journal } ∧
      ({ life with journal } : Lifecycle Unit).inState id .succeeded = false ∧
      ∃ row, row.state = .started ∧ journal.steps = Dict.set life.journal.steps effectId row := by
  unfold JournalWorld.beginStep at h
  split at h
  · cases h
  · split at h
    · cases h
    · next op hop =>
        split at h
        · cases h
        · split at h
          · cases h
          · next hfinished _ =>
              obtain rfl := Option.some.inj h
              have hrow := operation_updateOp life.journal id (fun op =>
                { op with
                    state := if op.state = .pending then .running else op.state
                    revision := op.revision + 1
                    updatedUtcMs := now
                    leaseOwner := deliveryJournalOwner
                    leasePid := if pid = 0 then op.leasePid else pid
                    leaseExpiryUtcMs := now + staleLeaseMs }) fun _ => rfl
              have hnot : (if op.state = .pending then .running else op.state) ≠
                  OperationState.succeeded := by
                intro heq
                split at heq
                · cases heq
                · rw [heq] at hfinished
                  exact hfinished rfl
              refine ⟨.of_map hrow fun op' hop' heq => ?_, ?_, _, rfl, rfl⟩
              · obtain rfl := Option.some.inj (hop.symm.trans hop')
                exact absurd heq hnot
              · rw [Lifecycle.inState, Lifecycle.row]
                refine (congrArg (Option.any _) (hrow.trans (congrArg (Option.map _) hop))).trans ?_
                exact decide_eq_false hnot

theorem retired_row (life : Lifecycle Unit) (cancelled : Bool) :
    (life.retired id cancelled).row id = life.row id ∧
      (life.retired id cancelled).journal.steps = life.journal.steps := by
  unfold Lifecycle.retired
  split <;> exact ⟨rfl, rfl⟩

theorem finalizeStep_spec {life life' : Lifecycle Unit} {effectId findingCode : String}
    {state : StepState} {now : Int}
    (h : life.finalizeStep id effectId state findingCode now = some life') :
    Keeps id life life' ∧
      ∃ row, row.state = state ∧
        life'.journal.steps = Dict.set life.journal.steps effectId row := by
  unfold Lifecycle.finalizeStep at h
  split at h
  · cases h
  · obtain ⟨journal, hjournal, rfl⟩ := Option.map_eq_some_iff.mp h
    unfold JournalWorld.finalizeStep at hjournal
    split at hjournal
    · cases hjournal
    · next op hop =>
        dsimp only at hjournal
        obtain rfl := Option.some.inj hjournal
        refine ⟨?_, _, ?_, (retired_row _ _).2⟩
        · refine Keeps.trans ?_ (.of_row (retired_row _ _).1)
          refine .of_map (operation_updateOp _ _ _ fun _ => rfl) fun op' hop' heq => ?_
          dsimp only at heq
          split at heq
          · cases heq
          · exact heq
        · rfl

theorem closeStep_spec {life : Lifecycle Unit} (hthere : (life.row id).isSome = true)
    (effectId : String) (outcome : Outcome) (now : Int) :
    Keeps id life (life.closeStep id effectId outcome now) ∧
      ∃ row, row.state = outcome.state ∧
        (life.closeStep id effectId outcome now).journal.steps =
          Dict.set life.journal.steps effectId row := by
  obtain ⟨op, hop⟩ := Option.isSome_iff_exists.mp hthere
  have hsome : (life.finalizeStep id effectId outcome.state outcome.findingCode now).isSome := by
    unfold Lifecycle.finalizeStep JournalWorld.finalizeStep
    rw [show life.journal.store.operation id = some op from hop]
    cases outcome <;> rfl
  obtain ⟨life', hlife'⟩ := Option.isSome_iff_exists.mp hsome
  rw [Lifecycle.closeStep, hlife', Option.getD_some]
  exact finalizeStep_spec hlife'

theorem markOperationState_spec (id : String) (life : Lifecycle Unit) (state : OperationState)
    (now : Int) :
    ((life.row id).isSome = true → ((life.markOperationState id state now).row id).isSome = true) ∧
      ((life.markOperationState id state now).inState id .succeeded = true → state = .succeeded ∨
        life.inState id .succeeded = true) ∧
      (life.markOperationState id state now).journal.steps = life.journal.steps := by
  unfold Lifecycle.markOperationState
  split
  · exact ⟨fun h => h, fun h => .inr h, rfl⟩
  · next hthere =>
      have hrow := operation_updateOp life.journal id (fun op =>
        { op with
            state
            revision := op.revision + 1
            updatedUtcMs := now
            terminalUtcMs := if state.isFinished then now else op.terminalUtcMs }) fun _ => rfl
      have hmark : ∀ life' : Lifecycle Unit,
          life'.row id = (life.journal.markOperationState id state now).store.operation id →
          ((life.row id).isSome = true → (life'.row id).isSome = true) ∧
            (life'.inState id .succeeded = true → state = .succeeded ∨
              life.inState id .succeeded = true) := by
        intro life' hlife'
        have hmap := hlife'.trans hrow
        refine ⟨fun h => ?_, fun h => .inl ?_⟩
        · rw [hmap, Option.isSome_map]
          exact h
        · obtain ⟨op, hop⟩ := Option.ne_none_iff_exists'.mp (by simpa using hthere)
          rw [Lifecycle.inState, hmap, show life.journal.store.operation id = some op from hop] at h
          simpa using h
      dsimp only
      split
      · exact ⟨(hmark _ rfl).1, (hmark _ rfl).2, rfl⟩
      · exact ⟨(hmark _ rfl).1, (hmark _ rfl).2, rfl⟩

theorem enqueueDeferred_spec (id : String) (life : Lifecycle Unit)
    (operationId deferredDigest : String) (now staleLeaseMs : Int) (queueDepthMax : Nat)
    (alive : Int → Bool) :
    Keeps id life
      (life.enqueueDeferred id operationId deferredDigest now staleLeaseMs queueDepthMax alive) ∧
      (life.enqueueDeferred id operationId deferredDigest now staleLeaseMs queueDepthMax
        alive).journal.steps = life.journal.steps := by
  unfold Lifecycle.enqueueDeferred
  split
  · exact ⟨.refl _, rfl⟩
  · exact ⟨.of_row rfl, rfl⟩
  · split
    · exact ⟨.of_map (operation_updateOp _ _ _ fun _ => rfl) fun _ _ h => h, rfl⟩
    · exact ⟨.of_row rfl, rfl⟩

theorem applyCrashRecovery_spec (id : String) (life : Lifecycle Unit) (now : Int) :
    Keeps id life { life with journal := life.journal.applyCrashRecovery id now } ∧
      (life.journal.applyCrashRecovery id now).steps =
        Dict.mapValues classifyRestart life.journal.steps := by
  refine ⟨.of_map (operation_updateOp _ _ _ fun _ => rfl) fun op _ heq => ?_, rfl⟩
  dsimp only at heq
  split at heq
  · cases heq
  · exact heq

/-- What an operator's deed makes of the rows. -/
inductive Recovered (steps steps' : Dict String StepRecord) : LifeDeed → Prop where
  | same {deed : LifeDeed} (h : steps' = steps) : Recovered steps steps' deed
  | classified {deed : LifeDeed} (h : steps' = Dict.mapValues classifyRestart steps) :
      Recovered steps steps' deed
  | reconciled {auth : Authority} {effectId : String} {applied : Bool} {now : Int}
      {prior row : StepRecord} (hprior : Dict.lookup steps effectId = some prior)
      (hunsettled : prior.state = .started ∨ prior.state = .indeterminate)
      (hrow : row.state = if applied then .succeeded else .failed)
      (h : steps' = Dict.set steps effectId row) :
      Recovered steps steps' (.reconcileEffect auth effectId applied now)

theorem exec_recovers {digests : Digests} {life : Lifecycle Unit} {deed : LifeDeed}
    (hdeed : deed.recovers = true) : Keeps id life (life.exec id digests deed) ∧
      Recovered life.journal.steps (life.exec id digests deed).journal.steps deed := by
  cases deed with
  | beginStep | finalizeStep | markOperationState | enqueueDeferred => cases hdeed
  | recoverAfterCrash now alive =>
      rw [Lifecycle.exec, Lifecycle.recoverAfterCrash]
      split
      · exact ⟨.refl _, .same rfl⟩
      · split
        · exact ⟨.refl _, .same rfl⟩
        · exact ⟨(applyCrashRecovery_spec id life now).1,
            .classified (applyCrashRecovery_spec id life now).2⟩
  | takeover auth newOwner newPid now staleLeaseMs alive =>
      rw [Lifecycle.exec]
      unfold JournalWorld.takeover
      split
      · exact ⟨.refl _, .same rfl⟩
      · split
        · exact ⟨.refl _, .same rfl⟩
        · split
          · exact ⟨.refl _, .same rfl⟩
          · exact ⟨.of_map (operation_updateOp _ _ _ fun _ => rfl) fun _ _ h => h, .same rfl⟩
  | resume auth newPid now staleLeaseMs alive =>
      rw [Lifecycle.exec]
      unfold JournalWorld.resume
      split
      · exact ⟨.refl _, .same rfl⟩
      · next op hop =>
          split
          · exact ⟨.refl _, .same rfl⟩
          · dsimp only
            generalize hclassified : (if op.leaseValid now alive = true then life.journal
              else life.journal.applyCrashRecovery id now) = classified
            have hkeeps : Keeps id life { life with journal := classified } ∧
                (classified.steps = life.journal.steps ∨
                  classified.steps = Dict.mapValues classifyRestart life.journal.steps) := by
              subst hclassified
              split
              · exact ⟨.refl _, .inl rfl⟩
              · exact ⟨(applyCrashRecovery_spec id life now).1,
                  .inr (applyCrashRecovery_spec id life now).2⟩
            have hsteps : Recovered life.journal.steps classified.steps
                (.resume auth newPid now staleLeaseMs alive) := by
              rcases hkeeps.2 with h | h
              · exact .same h
              · exact .classified h
            split
            · exact ⟨hkeeps.1, hsteps⟩
            · refine ⟨hkeeps.1.trans ?_, hsteps⟩
              exact .of_map (operation_updateOp _ _ _ fun _ => rfl) fun _ _ h => h
  | reconcileEffect auth effectId applied now =>
      rw [Lifecycle.exec]
      unfold JournalWorld.reconcileEffect
      split
      · next op step hop hstep =>
          split
          · exact ⟨.refl _, .same rfl⟩
          · split
            · exact ⟨.refl _, .same rfl⟩
            · next hstate =>
                refine ⟨.of_map (operation_updateOp _ _ _ fun _ => rfl) (by rintro _ _ ⟨⟩),
                  .reconciled hstep ?_ ?_ rfl⟩
                · by_contra hnot
                  exact hstate ⟨fun h => hnot (.inl h), fun h => hnot (.inr h)⟩
                · rfl
      · exact ⟨.refl _, .same rfl⟩
  | requestCancel auth now =>
      rw [Lifecycle.exec, Lifecycle.requestCancel]
      split
      · exact ⟨.refl _, .same rfl⟩
      · next op hop =>
          split
          · exact ⟨.refl _, .same rfl⟩
          · unfold JournalWorld.requestCancel
            rw [show life.journal.store.operation id = some op from hop]
            dsimp only
            split
            · exact ⟨.of_row rfl, .same rfl⟩
            · refine ⟨.of_map (operation_updateOp _ _ _ fun _ => rfl) fun _ _ h => ?_, .same rfl⟩
              dsimp only at h
              split at h <;> cases h

/-! ## A boundary -/

/-- The rows a journal was shown say that the effect succeeded. -/
def Journal.Succeeded (journal : Journal) (effectId : String) : Prop :=
  ∃ prior, journal.resumeSteps.bind (Dict.lookup · effectId) = some prior ∧
    prior.state = .succeeded

theorem verdict_record {journal : Journal} {effectId findingCode : String}
    (h : journal.verdict effectId = .record findingCode) : journal.Succeeded effectId := by
  unfold Journal.verdict at h
  split at h
  · cases h
  · split at h
    · cases h
    · next prior hprior =>
        split at h
        · split at h <;> cases h
        · split at h
          · next hsucceeded => exact ⟨prior, hprior, hsucceeded⟩
          · cases h

/-- An effect that is opened runs, is skipped with its row as it is, or is recorded as the
success the journal was shown. -/
theorem openStep_spec {life life' : Lifecycle Unit} {journal : Journal} {effectId : String}
    {now staleLeaseMs : Int} {runs : Bool}
    (h : life.openStep id staleLeaseMs journal effectId now = some (runs, life')) :
    Keeps id life life' ∧
      ((runs = true ∧ journal.verdict effectId = .run ∧ life'.inState id .succeeded = false ∧
          ∃ row, row.state = .started ∧
            life'.journal.steps = Dict.set life.journal.steps effectId row) ∨
        (runs = false ∧ journal.verdict effectId = .skip ∧ life' = life) ∨
        (runs = false ∧ journal.Succeeded effectId ∧ ∃ row, row.state = .succeeded ∧
          life'.journal.steps = Dict.set life.journal.steps effectId row)) := by
  unfold Lifecycle.openStep at h
  split at h
  · next hverdict =>
      obtain ⟨rfl, rfl⟩ := Prod.mk.inj (Option.some.inj h)
      exact ⟨.refl _, .inr (.inl ⟨rfl, hverdict, rfl⟩)⟩
  · next findingCode hverdict =>
      obtain ⟨final, hfinal, heq⟩ := Option.map_eq_some_iff.mp h
      obtain ⟨rfl, rfl⟩ := Prod.mk.inj heq
      obtain ⟨hkeeps, row, hrow, hsteps⟩ := finalizeStep_spec hfinal
      exact ⟨hkeeps, .inr (.inr ⟨rfl, verdict_record hverdict, row, hrow, hsteps⟩)⟩
  · next hverdict =>
      obtain ⟨begun, hbegun, heq⟩ := Option.map_eq_some_iff.mp h
      obtain ⟨rfl, rfl⟩ := Prod.mk.inj heq
      obtain ⟨hkeeps, hnot, row, hrow, hsteps⟩ := beginStep_spec hbegun
      exact ⟨hkeeps, .inl ⟨rfl, hverdict, hnot, row, hrow, hsteps⟩⟩

end

end TrwMcp.Delivery
