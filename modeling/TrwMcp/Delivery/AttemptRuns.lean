import TrwMcp.Delivery.AttemptCalls
import TrwMcp.Lib.Exec

/-!
# What a succeeded row and a succeeded operation say

A row says `succeeded` when the context manager saw no exception, and the operation when the batch
saw no error. Both are right in a run in which nothing inside a boundary catches an exception or
leaves the effect out, and in which no required effect is left behind as failed.
-/

set_option linter.unusedSectionVars false

namespace TrwMcp.Delivery

open Lib

section

variable {C : Type} [DecidableEq C] {id : String}
variable {deferredDigest : String} {staleLeaseMs : Int} {queueDepthMax : Nat}

/-! ## The batch -/

/-- What a batch has still to show of `D16` once it has passed it. -/
def Trusts (w : DeliveryWorld C) (batch : Batch) : Prop :=
  batch.errors = 0 → "D16" ∉ batch.stage.pending → (w.find "D16").isSome = true → w.Done "D16"

theorem DeliveryInv.batchStep {w v : DeliveryWorld C} (h : DeliveryInv id w) {batch : Batch}
    (hb : w.batch = some batch) {new : Option Batch} {e₀ : String}
    (he₀ : e₀ ∈ requiredEffects → e₀ = "D16") (hcalls : v.calls = w.calls) (hbatch : v.batch = new)
    (hchange : Change id w v e₀)
    (hnew : ∀ batch', new = some batch' →
      (∀ e, batch'.journal.Succeeded e → w.Did e) ∧
      (∀ e ∈ batch'.stage.pending, e ∈ requiredEffects → e = "D16") ∧ Trusts v batch' ∧
      (batch'.stage.after = true → batch'.errors = 0 → w.Done "S20")) : DeliveryInv id v := by
  obtain ⟨hholds, hlate⟩ := h.batch batch hb
  have hfind : ∀ e ∈ requiredEffects, e ≠ "D16" → v.find e = w.find e := by
    intro e he hne
    exact hchange.find e fun heq => hne (heq.trans (he₀ (heq ▸ he)))
  have hmark := hfind "S18" (by decide) (by decide)
  have hevent := hfind "S20" (by decide) (by decide)
  have hsub : ∀ e ∈ "S20" :: criticalEffects, e ∈ requiredEffects ∧ e ≠ "D16" := by decide
  refine ⟨hchange.keeps.there h.there, hchange.done h.did, fun c call hc e he => ?_,
    fun batch' hb' e he => ?_, hchange.kinds h.kinds, fun hsome => ?_,
    fun c c' call call' hc hc' => ?_, fun c call hc => ?_, fun batch' hb' => ⟨?_, ?_⟩,
    fun hsucceeded => ?_⟩
  · rw [hcalls] at hc
    exact hchange.did e (h.shown c call hc e he)
  · exact hchange.did e ((hnew batch' (hbatch.symm.trans hb')).1 e he)
  · rw [hevent] at hsome
    exact (h.order hsome).congr hmark
  · rw [hcalls] at hc hc'
    exact h.single c c' call call' hc hc'
  · rw [hcalls] at hc
    have hheld := h.calls c call hc
    have hlate' := hlate c call hc
    refine ⟨hheld.planned, hheld.place.congr hmark hevent fun hearly => ?_,
      fun e he hmem hdone => ?_, fun e he hstarted => ?_⟩
    · rw [hlate'] at hearly
      cases hearly
    · have hne : e ≠ "D16" := by
        rintro rfl
        cases hstage : call.stage with
        | going | running | mirroring | gating | gate => rw [hstage] at hlate'; cases hlate'
        | late => rw [hstage] at hmem; cases hmem
        | finishing effect effects =>
            rw [hstage] at hmem
            have heq := List.mem_singleton.mp hmem
            cases effect <;> exact absurd heq (by decide)
      exact hheld.opened e he hmem (hdone.congr (hfind e he hne).symm)
    · obtain ⟨hrequired, hne⟩ := hsub e he
      exact hheld.started e he (hstarted.congr (hfind e hrequired hne).symm)
  · obtain ⟨-, hpending, htrust, hafter⟩ := hnew batch' (hbatch.symm.trans hb')
    refine ⟨fun e he hsome => ?_, hpending, htrust, fun ha herrors => ?_⟩
    · obtain ⟨hrequired, hne⟩ := hsub e (List.mem_cons_of_mem _ he)
      rw [hfind e hrequired hne] at hsome
      exact (hholds.critical e he hsome).congr (hfind e hrequired hne)
    · exact (hafter ha herrors).congr hevent
  · rw [hcalls]
    exact hlate
  · have hnone := (h.final (hchange.keeps.succeeded hsucceeded)).2.1
    rw [hb] at hnone
    cases hnone

theorem DeliveryInv.batchNext {w v : DeliveryWorld C} (h : DeliveryInv id w) {batch : Batch}
    (hb : w.batch = some batch) {e₀ : String} (he₀ : e₀ ∈ requiredEffects → e₀ = "D16")
    (hcalls : v.calls = w.calls) {stage : BatchStage} {errors : Nat}
    (hbatch : v.batch = some { batch with stage, errors }) (hchange : Change id w v e₀)
    (hpending : stage.pending ⊆ batch.stage.pending)
    (htrust : errors = 0 → "D16" ∉ stage.pending → (v.find "D16").isSome = true → v.Done "D16")
    (hafter : stage.after = true → errors = 0 → w.Done "S20") : DeliveryInv id v := by
  obtain ⟨hholds, -⟩ := h.batch batch hb
  refine h.batchStep hb he₀ hcalls hbatch hchange fun batch' hb' => ?_
  obtain rfl := Option.some.inj hb'
  exact ⟨h.shownBatch batch hb, fun e he => hholds.pending e (hpending he), htrust, hafter⟩

theorem DeliveryInv.trust {w v : DeliveryWorld C} (h : DeliveryInv id w) {batch : Batch}
    (hb : w.batch = some batch) {e₀ : String} (hchange : Change id w v e₀) (hne : e₀ ≠ "D16")
    {stage : BatchStage} (hpending : "D16" ∉ stage.pending → "D16" ∉ batch.stage.pending)
    (herrors : batch.errors = 0) (hpassed : "D16" ∉ stage.pending)
    (hsome : (v.find "D16").isSome = true) : v.Done "D16" := by
  have hfind := hchange.find "D16" hne.symm
  rw [hfind] at hsome
  exact ((h.batch batch hb).1.trust herrors (hpending hpassed) hsome).congr hfind

theorem DeliveryInv.failed {w v : DeliveryWorld C} (h : DeliveryInv id w) {batch : Batch}
    (hb : w.batch = some batch) {e₀ : String} (he₀ : e₀ ∈ requiredEffects → e₀ = "D16")
    (hcalls : v.calls = w.calls) {stage : BatchStage}
    (hbatch : v.batch = some { batch with stage, errors := batch.errors + 1 })
    (hchange : Change id w v e₀) (hpending : stage.pending ⊆ batch.stage.pending) :
    DeliveryInv id v :=
  h.batchNext hb he₀ hcalls hbatch hchange hpending (fun hzero => nomatch hzero)
    fun _ hzero => nomatch hzero

theorem DeliveryInv.openBatch {w raises : DeliveryWorld C} (h : DeliveryInv id w) {batch : Batch}
    (hb : w.batch = some batch) {e₀ : String} (he₀ : e₀ ∈ requiredEffects → e₀ = "D16")
    (hskip : e₀ = "D16" → batch.journal.verdict e₀ ≠ .skip) {now : Int} {runs skips : BatchStage}
    (hraises : DeliveryInv id raises) (hruns : runs.pending ⊆ batch.stage.pending)
    (hskips : skips.pending ⊆ batch.stage.pending)
    (hopened : e₀ = "D16" → "D16" ∈ runs.pending)
    (hpassed : e₀ ≠ "D16" → ∀ stage ∈ [runs, skips], "D16" ∉ stage.pending →
      "D16" ∉ batch.stage.pending)
    (hafter : ∀ stage ∈ [runs, skips], stage.after = true → batch.stage.after = true) :
    DeliveryInv id (w.openBatch id staleLeaseMs batch e₀ now runs skips raises) := by
  obtain ⟨hholds, -⟩ := h.batch batch hb
  have hrunsMem : runs ∈ [runs, skips] := List.mem_cons_self ..
  have hskipsMem : skips ∈ [runs, skips] := List.mem_cons_of_mem _ (List.mem_singleton.mpr rfl)
  unfold DeliveryWorld.openBatch
  split
  · next life hopen =>
      generalize hv : (({ w with life } : DeliveryWorld C).setBatch batch runs) = v
      have hchange : Change id w v e₀ :=
        h.change_open (h.shownBatch batch hb) hopen (by rw [← hv]; rfl) fun e he => by
          rw [← hv]
          exact he
      have hbatch : v.batch = some { batch with stage := runs, errors := batch.errors } := by
        rw [← hv]
        rfl
      refine h.batchNext hb he₀ (by rw [← hv]; rfl) hbatch hchange hruns
        (fun herrors hpending hsome => ?_)
        fun ha herrors => hholds.event (hafter _ hrunsMem ha) herrors
      by_cases heq : e₀ = "D16"
      · exact absurd (hopened heq) hpending
      · exact h.trust hb hchange heq (hpassed heq _ hrunsMem) herrors hpending hsome
  · next life hopen =>
      generalize hv : (({ w with life } : DeliveryWorld C).setBatch batch skips) = v
      have hlife : v.life = life := by rw [← hv]; rfl
      have hchange : Change id w v e₀ :=
        h.change_open (h.shownBatch batch hb) hopen hlife fun e he => by
          rw [← hv]
          exact he
      have hbatch : v.batch = some { batch with stage := skips, errors := batch.errors } := by
        rw [← hv]
        rfl
      refine h.batchNext hb he₀ (by rw [← hv]; rfl) hbatch hchange hskips
        (fun herrors hpending hsome => ?_)
        fun ha herrors => hholds.event (hafter _ hskipsMem ha) herrors
      by_cases heq : e₀ = "D16"
      · subst hlife heq
        obtain ⟨-, ⟨hfalse, -⟩ | ⟨-, hverdict, -⟩ | ⟨-, -, row, hrow, hsteps⟩⟩ :=
          openStep_spec hopen
        · cases hfalse
        · exact absurd hverdict (hskip rfl)
        · exact ⟨row, (find_set hsteps).1, hrow⟩
      · exact h.trust hb hchange heq (hpassed heq _ hskipsMem) herrors hpending hsome
  · exact hraises

theorem readResumeGrant_spec {life : Lifecycle Unit} {pid now : Int}
    {steps : Dict String StepRecord} (h : life.journal.readResumeGrant id pid now = some steps) :
    steps = life.journal.steps ∧ life.inState id .succeeded = false := by
  unfold JournalWorld.readResumeGrant at h
  split at h
  · cases h
  · next op hop =>
      split at h
      · cases h
      · next hfinished =>
          repeat (split at h; · cases h)
          refine ⟨(Option.some.inj h).symm, ?_⟩
          rw [inState_of_row (show life.row id = some op from hop)]
          refine decide_eq_false fun heq => hfinished ?_
          rw [heq]
          rfl

theorem shown_rows {w : DeliveryWorld C} {journal : Journal} {pid now : Int}
    (hjournal : journal.resumeSteps = w.life.journal.readResumeGrant id pid now) {e : String}
    (he : journal.Succeeded e) : w.Done e := by
  obtain ⟨prior, hprior, hstate⟩ := he
  rw [hjournal] at hprior
  cases hgrant : w.life.journal.readResumeGrant id pid now with
  | none =>
      rw [hgrant] at hprior
      cases hprior
  | some steps =>
      rw [hgrant] at hprior
      obtain rfl := (readResumeGrant_spec hgrant).1
      exact ⟨prior, hprior, hstate⟩

theorem DeliveryInv.batchStay {w v : DeliveryWorld C} (h : DeliveryInv id w) {batch : Batch}
    (hb : w.batch = some batch) (hcalls : v.calls = w.calls) {stage : BatchStage}
    (hbatch : v.batch = some { batch with stage })
    (hlife : v.life = w.life) (hdid : ∀ e, w.Did e → v.Did e)
    (hpending : stage.pending = batch.stage.pending)
    (hafter : stage.after = true → batch.errors = 0 → w.Done "S20") : DeliveryInv id v := by
  have hchange : Change id w v "" :=
    h.same v (.of_row (by rw [hlife])) (by rw [DeliveryWorld.steps, hlife]; rfl) hdid ""
  have hbatch' : v.batch = some { batch with stage, errors := batch.errors } := hbatch
  refine h.batchNext hb (by decide) hcalls hbatch' hchange (by rw [hpending]; exact fun _ h => h)
    (fun herrors hpassed hsome => ?_) hafter
  exact h.trust hb hchange (by decide) (by rw [hpending]; exact fun h => h) herrors hpassed hsome

theorem CallHolds.settled {w : DeliveryWorld C} {call : Call} (h : CallHolds w call)
    (hlate : call.stage.early = false) (hevent : w.Done "S20") :
    ∀ e ∈ requiredEffects, e ∉ call.stage.opens := by
  intro e he hmem
  have hundone := h.opened e he hmem
  have hplace := h.place
  cases hstage : call.stage with
  | going | running | mirroring | gating | gate =>
      rw [hstage] at hlate
      cases hlate
  | late =>
      rw [hstage] at hmem
      cases hmem
  | finishing effect effects =>
      rw [hstage] at hmem hplace
      obtain rfl := List.mem_singleton.mp hmem
      match effect, effects, hplace with
      | .mark, [.nudge, .event], hplace =>
          have hnone : w.find "S20" = none := hplace
          have hsome := hevent.isSome
          rw [hnone] at hsome
          cases hsome
      | .nudge, [.event], _ => exact absurd he (by decide)
      | .event, [], _ => exact hundone hevent

theorem DeliveryInv.close {w : DeliveryWorld C} (h : DeliveryInv id w) {batch : Batch}
    (hb : w.batch = some batch) (hstage : batch.stage = .closing) {state : OperationState}
    (hstate : state = .succeeded → batch.errors = 0) (now : Int) :
    DeliveryInv id
      { w with life := w.life.markOperationState id state now, batch := none } := by
  obtain ⟨hholds, hlate⟩ := h.batch batch hb
  obtain ⟨hthere, hmark, hsteps⟩ := markOperationState_spec id w.life state now
  generalize hv :
    ({ w with life := w.life.markOperationState id state now, batch := none } : DeliveryWorld C) = v
  have hlife : v.life = w.life.markOperationState id state now := by rw [← hv]
  have hcalls : v.calls = w.calls := by rw [← hv]
  have hbatch : v.batch = none := by rw [← hv]
  have hdid : ∀ e, w.Did e → v.Did e := fun e he => by rw [← hv]; exact he
  have hfind : ∀ e, v.find e = w.find e :=
    DeliveryWorld.find_eq (by rw [DeliveryWorld.steps, hlife]; exact hsteps)
  refine ⟨by rw [hlife]; exact hthere h.there,
    fun e he => hdid e (h.did e (he.congr (hfind e).symm)),
    fun c call hc e he => ?_, fun batch' hb' => ?_, fun e row hrow => ?_, fun hsome => ?_,
    fun c c' call call' hc hc' => ?_, fun c call hc => ?_, fun batch' hb' => ?_,
    fun hsucceeded => ?_⟩
  · rw [hcalls] at hc
    exact hdid e (h.shown c call hc e he)
  · rw [hbatch] at hb'
    cases hb'
  · exact h.kinds e row ((hfind e).symm.trans hrow)
  · rw [hfind] at hsome
    exact (h.order hsome).congr (hfind _)
  · rw [hcalls] at hc hc'
    exact h.single c c' call call' hc hc'
  · rw [hcalls] at hc
    have hheld := h.calls c call hc
    refine ⟨hheld.planned, hheld.place.congr (hfind _) (hfind _) fun hearly => ?_,
      fun e he hmem hdone => hheld.opened e he hmem (hdone.congr (hfind e).symm),
      fun e he hstarted => hheld.started e he (hstarted.congr (hfind e).symm)⟩
    rw [hlate c call hc] at hearly
    cases hearly
  · rw [hbatch] at hb'
    cases hb'
  · rw [hlife] at hsucceeded
    rcases hmark hsucceeded with hsucceeded | hbefore
    · have herrors := hstate hsucceeded
      have hevent : w.Done "S20" := hholds.event (by rw [hstage]; rfl) herrors
      have hpending : "D16" ∉ batch.stage.pending := by rw [hstage]; exact List.not_mem_nil
      have hrequired : ∀ e ∈ requiredEffects, (w.find e).isSome = true → w.Done e := by
        intro e he hsome
        have hall : ∀ e ∈ requiredEffects, e ∈ criticalEffects ∨ e = "S18" ∨ e = "S20" ∨
          e = "D16" := by decide
        rcases hall e he with hcritical | rfl | rfl | rfl
        · exact hholds.critical e hcritical hsome
        · exact h.order hevent.isSome
        · exact hevent
        · exact hholds.trust herrors hpending hsome
      refine ⟨fun e he hsome => ?_, hbatch, fun c call hc => ?_⟩
      · rw [hfind] at hsome
        exact (hrequired e he hsome).congr (hfind e)
      · rw [hcalls] at hc
        exact ⟨hlate c call hc, (h.calls c call hc).settled (hlate c call hc) hevent⟩
    · have hnone := (h.final hbefore).2.1
      rw [hb] at hnone
      cases hnone

theorem DeliveryInv.startBatch {w v : DeliveryWorld C} (h : DeliveryInv id w) {batch : Batch}
    (hb : w.batch = some batch) {skipIndexSync : Bool}
    (hpending : ∀ e ∈ deferredRoster skipIndexSync, e ∈ requiredEffects → e = "D16") {now : Int}
    (hlife : v.life = w.life.markOperationState id .deferredRunning now)
    (hcalls : v.calls = w.calls)
    (hbatch : v.batch = some
      { journal := { batch.journal with
          resumeSteps := w.life.journal.readResumeGrant id batch.journal.pid now }
        stage := .roster (deferredRoster skipIndexSync) })
    (hdid : ∀ e, w.Did e → v.Did e) : DeliveryInv id v := by
  obtain ⟨hthere, hmark, hsteps⟩ := markOperationState_spec id w.life .deferredRunning now
  have hkeeps : Keeps id w.life v.life := by
    rw [hlife]
    exact ⟨hthere, fun hs => (hmark hs).resolve_left (by simp)⟩
  have hchange : Change id w v "" :=
    h.same v hkeeps (by rw [DeliveryWorld.steps, hlife]; exact hsteps) hdid ""
  refine h.batchStep hb (by decide) hcalls hbatch hchange fun batch' hb' => ?_
  obtain rfl := Option.some.inj hb'
  refine ⟨fun e he => h.did e (shown_rows rfl he), hpending, fun _ hpassed => ?_,
    fun hclosed => by cases hclosed⟩
  have hall : ∀ skip, "D16" ∈ deferredRoster skip := by decide
  exact absurd (hall _) hpassed

theorem DeliveryInv.batchAct {w : DeliveryWorld C} (h : DeliveryInv id w) {batch : Batch}
    (hb : w.batch = some batch) (hregular : RegularBatch w batch batch.stage) (now : Int)
    (works : Bool) : DeliveryInv id (w.batchAct id staleLeaseMs batch now works batch.stage) := by
  obtain ⟨hholds, hlate⟩ := h.batch batch hb
  obtain ⟨journal, stage, errors⟩ := batch
  have hfail : ∀ stage' : BatchStage, stage'.pending ⊆ stage.pending →
      DeliveryInv id (w.failBatch ⟨journal, stage, errors⟩ stage') := by
    intro stage' hpending
    have hchange : Change id w (w.failBatch ⟨journal, stage, errors⟩ stage') "" :=
      h.same (w.failBatch ⟨journal, stage, errors⟩ stage') (.refl _) rfl (fun _ he => he) ""
    exact h.failed hb (by decide) rfl rfl hchange hpending
  cases stage with
  | launched skipIndexSync =>
      dsimp only [DeliveryWorld.batchAct]
      split
      · have hchange : Change id w { w with batch := none } "" :=
          h.same { w with batch := none } (.refl _) rfl (fun _ he => he) ""
        exact h.batchStep hb (by decide) rfl rfl hchange fun _ hnone => nomatch hnone
      · exact h.startBatch hb hholds.pending rfl rfl rfl fun _ he => he
  | roster effects =>
      cases effects with
      | nil => exact h.batchStay hb rfl rfl rfl (fun _ he => he) rfl nofun
      | cons e effects =>
          dsimp only [DeliveryWorld.batchAct]
          split
          · next heq =>
              subst heq
              exact h.batchStay hb rfl rfl rfl (fun _ he => he) rfl nofun
          · refine h.openBatch hb (hholds.pending e (List.mem_cons_self ..)) (fun heq => ?_)
              (hfail _ (List.nil_subset _)) (fun _ h => h) (List.subset_cons_self ..)
              (fun heq => ?_) (fun hne stage hmem hpassed hpending => ?_) fun stage hmem ha => ?_
            · subst heq
              exact hregular (by decide)
            · exact heq ▸ List.mem_cons_self ..
            · have hin : "D16" ∈ effects := (List.mem_cons.mp hpending).resolve_left hne.symm
              simp only [List.mem_cons, List.not_mem_nil, or_false] at hmem
              rcases hmem with rfl | rfl
              · exact hpassed (List.mem_cons_of_mem _ hin)
              · exact hpassed hin
            · simp only [List.mem_cons, List.not_mem_nil, or_false] at hmem
              rcases hmem with rfl | rfl <;> cases ha
  | opened e effects =>
      dsimp only [DeliveryWorld.batchAct]
      rw [if_neg (by rw [show w.cancel = false from hregular]; decide)]
      exact h.batchStay hb rfl rfl rfl (fun _ he => he) rfl nofun
  | metrics =>
      dsimp only [DeliveryWorld.batchAct]
      split
      · refine h.openBatch hb (by decide) (fun heq => absurd heq (by decide))
          (hfail _ fun _ h => h) (fun _ h => h)
          (fun _ h => h) (by decide) (fun _ _ _ _ => List.not_mem_nil) fun stage hmem ha => ?_
        simp only [List.mem_cons, List.not_mem_nil, or_false] at hmem
        rcases hmem with rfl | rfl <;> cases ha
      · exact hfail _ fun _ h => h
  | waiting =>
      dsimp only [DeliveryWorld.batchAct]
      split
      · next row hrow =>
          split
          · exact h
          · next hstate =>
              refine h.batchStay hb rfl rfl rfl (fun _ he => he) rfl fun _ _ => ⟨row, hrow, ?_⟩
              have hkinds := h.kinds "S20" row hrow
              cases hrowState : row.state with
              | succeeded => rfl
              | notStarted => exact absurd (.inl hrowState) hstate
              | started => exact absurd (.inr hrowState) hstate
              | failed => exact absurd hrowState (hregular row hrow)
              | indeterminate => exact absurd (hkinds.2 hrowState) (by decide)
      · exact h
  | results =>
      exact h.openBatch hb (by decide) (fun heq => absurd heq (by decide))
          (hfail _ fun _ h => h) (fun _ h => h)
        (fun _ h => h) (by decide) (fun _ _ _ _ => List.not_mem_nil) fun _ _ _ => rfl
  | audit =>
      refine h.openBatch hb (by decide) (fun heq => absurd heq (by decide))
          ?_ (fun _ h => h)
        (fun _ h => h) (by decide) (fun _ _ _ _ => List.not_mem_nil) fun _ _ _ => rfl
      exact h.batchStay hb rfl rfl rfl (fun _ he => he) rfl fun _ => hholds.event rfl
  | closing =>
      refine h.close hb rfl (fun hstate => ?_) now
      by_contra herrors
      split at hstate <;> cases hstate
  | running | persisting | writing | appending => exact h

theorem DeliveryInv.closeBatch {w v : DeliveryWorld C} (h : DeliveryInv id w) {batch : Batch}
    (hb : w.batch = some batch) {e₀ : String} (he₀ : e₀ ∈ requiredEffects → e₀ = "D16")
    {outcome : Outcome} {now : Int} (hlife : v.life = w.life.closeStep id e₀ outcome now)
    (hcalls : v.calls = w.calls) {stage : BatchStage} {errors : Nat}
    (hbatch : v.batch = some { batch with stage, errors })
    (herrors : errors = if outcome = .succeeded then batch.errors else batch.errors + 1)
    (hdid : ∀ e, w.Did e → v.Did e) (hreturned : outcome = .succeeded → v.Did e₀)
    (hpending : stage.pending ⊆ batch.stage.pending)
    (hpassed : e₀ ≠ "D16" → "D16" ∉ stage.pending → "D16" ∉ batch.stage.pending)
    (hafter : stage.after = true → batch.stage.after = true) : DeliveryInv id v := by
  obtain ⟨hchange, -, hdone⟩ := h.change_close hlife hdid hreturned
  have hzero : errors = 0 → outcome = .succeeded ∧ batch.errors = 0 := by
    intro hzero
    rw [hzero] at herrors
    split at herrors
    · next houtcome => exact ⟨houtcome, herrors.symm⟩
    · cases herrors
  refine h.batchNext hb he₀ hcalls hbatch hchange hpending (fun hz hpass hsome => ?_)
    fun ha hz => (h.batch batch hb).1.event (hafter ha) (hzero hz).2
  by_cases heq : e₀ = "D16"
  · exact heq ▸ hdone (hzero hz).1
  · exact h.trust hb hchange heq (hpassed heq) (hzero hz).2 hpass hsome

theorem DeliveryInv.closeAudit {w v : DeliveryWorld C} (h : DeliveryInv id w) {batch : Batch}
    (hb : w.batch = some batch) (hstage : batch.stage = .appending) {outcome : Outcome} {now : Int}
    (hlife : v.life = w.life.closeStep id "D24" outcome now) (hcalls : v.calls = w.calls)
    (hbatch : v.batch = some { batch with stage := .closing }) (hdid : ∀ e, w.Did e → v.Did e)
    (hreturned : outcome = .succeeded → v.Did "D24") : DeliveryInv id v := by
  have hchange := (h.change_close hlife hdid hreturned).1
  have hbatch' : v.batch = some { batch with stage := .closing, errors := batch.errors } := hbatch
  refine h.batchNext hb (by decide) hcalls hbatch' hchange (List.nil_subset _)
    (h.trust hb hchange (by decide) fun _ => ?_) fun _ => (h.batch batch hb).1.event ?_
  · rw [hstage]
    exact List.not_mem_nil
  · rw [hstage]
    rfl

theorem DeliveryInv.batchFinish {w : DeliveryWorld C} (h : DeliveryInv id w) {batch : Batch}
    (hb : w.batch = some batch) {outcome : Outcome}
    (hregular : ∀ e effects, batch.stage = .running e effects → outcome ≠ .raised) (now : Int) :
    DeliveryInv id (w.batchFinish id batch outcome now batch.stage) := by
  obtain ⟨hholds, -⟩ := h.batch batch hb
  obtain ⟨journal, stage, errors⟩ := batch
  cases stage with
  | launched | roster | opened | metrics | waiting | results | audit | closing => exact h
  | running e effects =>
      have hraised := hregular e effects rfl
      have hsub : effects ⊆ e :: effects := List.subset_cons_self ..
      have hpassed : e ≠ "D16" → "D16" ∉ effects → "D16" ∉ e :: effects := by
        intro hne hnot hmem
        exact hnot ((List.mem_cons.mp hmem).resolve_left hne.symm)
      dsimp only [DeliveryWorld.batchFinish]
      split
      · exact h
      · next hrefused =>
          have houtcome : outcome = .succeeded := by
            cases outcome with
            | succeeded => rfl
            | raised => exact absurd rfl hraised
            | refused => exact absurd rfl hrefused
          subst houtcome
          split
          · next heq =>
              subst heq
              have hchange : Change id w (w.setBatch ⟨journal, _, errors⟩ (.roster effects)) "" :=
                h.same (w.setBatch ⟨journal, .running "" effects, errors⟩ (.roster effects))
                  (.refl _) rfl (fun _ he => he) ""
              have hbatch : (w.setBatch ⟨journal, .running "" effects, errors⟩
                  (.roster effects)).batch = some ⟨journal, .roster effects, errors⟩ := rfl
              exact h.batchNext hb (by decide) rfl hbatch hchange hsub
                (h.trust hb hchange (by decide) (hpassed (by decide))) nofun
          · exact h.closeBatch hb (hholds.pending e (List.mem_cons_self ..)) rfl rfl rfl rfl
              (fun _ he => note_did e .succeeded he) (fun _ => note_returned rfl) hsub hpassed nofun
  | persisting =>
      dsimp only [DeliveryWorld.batchFinish]
      split
      · next houtcome =>
          exact h.closeBatch hb (by decide) rfl rfl rfl (if_pos houtcome).symm
            (fun _ he => note_did "D22" _ he) (fun heq => note_returned heq) (fun _ h => h)
            (fun _ h => h) nofun
      · next houtcome =>
          exact h.closeBatch hb (by decide) rfl rfl rfl (if_neg houtcome).symm
            (fun _ he => note_did "D22" _ he) (fun heq => note_returned heq) (fun _ h => h)
            (fun _ h => h) nofun
  | writing =>
      dsimp only [DeliveryWorld.batchFinish]
      split
      · next houtcome =>
          exact h.closeBatch hb (by decide) rfl rfl rfl (if_pos houtcome).symm
            (fun _ he => note_did "D23" _ he) (fun heq => note_returned heq) (fun _ h => h)
            (fun _ h => h) fun _ => rfl
      · next houtcome =>
          exact h.closeBatch hb (by decide) rfl rfl rfl (if_neg houtcome).symm
            (fun _ he => note_did "D23" _ he) (fun heq => note_returned heq) (fun _ h => h)
            (fun _ h => h) fun _ => rfl
  | appending =>
      exact h.closeAudit hb rfl rfl rfl rfl (fun _ he => note_did "D24" _ he) fun heq =>
        note_returned heq

/-! ## The calls -/

theorem DeliveryInv.stop {w : DeliveryWorld C} (h : DeliveryInv id w) {c : C} {call : Call}
    (hcall : w.calls c = some call) : DeliveryInv id (w.setCall c none) :=
  h.drop hcall rfl rfl (.refl _) rfl fun _ he => he

theorem MainStage.Planned.tail {item : MainItem} {items : List MainItem}
    (h : (MainStage.going (item :: items)).Planned) :
    item.Early ∧ (MainStage.going items).Planned :=
  ⟨h item (List.mem_cons_self ..), fun item' hmem => h item' (List.mem_cons_of_mem _ hmem)⟩

theorem DeliveryInv.mainAct {w : DeliveryWorld C} (h : DeliveryInv id w) {c : C} {call : Call}
    (hcall : w.calls c = some call) (hregular : RegularMain w call call.stage) (now : Int)
    (alive : Int → Bool) :
    DeliveryInv id (w.mainAct id deferredDigest staleLeaseMs queueDepthMax c call now alive
      call.stage) := by
  have hheld := h.calls c call hcall
  obtain ⟨journal, skipIndexSync, stage⟩ := call
  cases stage with
  | running | mirroring | gating | gate | finishing => exact h
  | going items =>
      cases items with
      | nil =>
          exact h.launch hcall rfl hregular ⟨⟨journal.pid, none, []⟩, .launched skipIndexSync, 0⟩
            ⟨rfl, rfl⟩ rfl
      | cons item items =>
          obtain ⟨hitem, hitems⟩ := hheld.planned.tail
          cases item with
          | step e runStep =>
              dsimp only [DeliveryWorld.mainAct]
              split
              · next life hopen =>
                  exact h.openEarly hcall rfl hitem List.not_mem_nil hopen rfl rfl rfl
                    (fun _ he => he) rfl ⟨hitem, hitems⟩
                    (fun e' hne => iff_of_false (fun hmem => hne (List.mem_singleton.mp hmem))
                      List.not_mem_nil) (iff_of_true (List.mem_singleton.mpr rfl) rfl)
              · next life hopen =>
                  exact h.openEarly hcall rfl hitem List.not_mem_nil hopen rfl rfl rfl
                    (fun _ he => he) rfl hitems (fun _ _ => .rfl)
                    (iff_of_false List.not_mem_nil nofun)
              · exact h.stop hcall
          | gates =>
              exact h.stayEarly hcall rfl rfl rfl (.refl _) rfl (fun _ he => he) rfl hitems rfl
          | mark state =>
              obtain ⟨hthere, hmark, hsteps⟩ :=
                markOperationState_spec id w.life state now
              exact h.stayEarly hcall rfl rfl rfl
                ⟨hthere, fun hs => (hmark hs).resolve_left hitem⟩ hsteps (fun _ he => he) rfl
                hitems rfl
          | enqueue =>
              dsimp only [DeliveryWorld.mainAct]
              split
              · obtain ⟨hkeeps, hsteps⟩ := enqueueDeferred_spec id w.life id deferredDigest
                  now staleLeaseMs queueDepthMax alive
                exact h.stayEarly hcall rfl rfl rfl hkeeps hsteps (fun _ he => he) rfl hitems rfl
              · exact h.stop hcall
  | late effects =>
      cases effects with
      | nil => exact h.stop hcall
      | cons effect effects =>
          dsimp only [DeliveryWorld.mainAct]
          split
          · next life hopen =>
              exact h.openLate hcall rfl hregular hopen rfl rfl rfl rfl fun _ he => he
          · next life hopen =>
              exact h.openLate hcall rfl hregular hopen rfl rfl rfl rfl fun _ he => he
          · exact h.stop hcall

theorem DeliveryInv.finish {w : DeliveryWorld C} (h : DeliveryInv id w) {c : C} {call : Call}
    (hcall : w.calls c = some call) {outcome : Outcome}
    (hregular : RegularFinish outcome call.stage) (now : Int) :
    DeliveryInv id (w.finish id c call outcome now call.stage) := by
  have hplanned := (h.calls c call hcall).planned
  obtain ⟨journal, skipIndexSync, stage⟩ := call
  cases stage with
  | going | gating | late => exact h
  | running e runStep items =>
      have hnew : ∀ call' : Call, some ⟨journal, skipIndexSync, .going items⟩ = some call' →
          call'.journal = journal ∧ call'.stage.early = true ∧ call'.stage.Planned ∧
            e ∉ call'.stage.opens ∧ ∀ e', e' ≠ e →
              (e' ∈ call'.stage.opens ↔ e' ∈ (MainStage.running e runStep items).opens) := by
        intro call' hc
        obtain rfl := Option.some.inj hc
        exact ⟨rfl, rfl, hplanned.2, List.not_mem_nil, fun e' hne =>
          iff_of_false List.not_mem_nil fun hmem => hne (List.mem_singleton.mp hmem)⟩
      dsimp only [DeliveryWorld.finish]
      split
      · exact h
      · next hrefused =>
          split
          · next hrun =>
              subst hrun
              have houtcome : outcome = .succeeded := by
                cases outcome with
                | succeeded => rfl
                | raised => exact absurd rfl hregular
                | refused => exact absurd rfl hrefused
              subst houtcome
              exact h.closeEarly hcall rfl hplanned.1 rfl rfl rfl
                (fun _ he => note_did e .succeeded he) (fun _ => note_returned rfl) hnew
          · split
            · exact h.closeEarly hcall rfl hplanned.1 rfl rfl rfl
                (fun _ he => note_did e outcome he) (fun heq => note_returned heq)
                fun _ hc => nomatch hc
            · exact h.closeEarly hcall rfl hplanned.1 rfl rfl rfl
                (fun _ he => note_did e outcome he) (fun heq => note_returned heq) hnew
  | mirroring items =>
      dsimp only [DeliveryWorld.finish]
      split
      · exact h
      · refine h.closeEarly hcall rfl (by decide) rfl rfl rfl
          (fun _ he => note_did "S02" outcome he) (fun heq => note_returned heq) fun call' hc => ?_
        obtain rfl := Option.some.inj hc
        refine ⟨rfl, rfl, ⟨by decide, hplanned⟩,
          fun hmem => absurd (List.mem_singleton.mp hmem) (by decide), fun e' hne => ?_⟩
        exact ⟨fun hmem => List.mem_cons_of_mem _ hmem,
          fun hmem => (List.mem_cons.mp hmem).resolve_left hne⟩
  | gate e refused items =>
      dsimp only [DeliveryWorld.finish]
      split
      · exact h
      · split
        · exact h.closeEarly hcall rfl hplanned.1 rfl rfl rfl
            (fun _ he => note_did e outcome he) (fun heq => note_returned heq)
            fun _ hc => nomatch hc
        · refine h.closeEarly hcall rfl hplanned.1 rfl rfl rfl
            (fun _ he => note_did e outcome he) (fun heq => note_returned heq) fun call' hc => ?_
          obtain rfl := Option.some.inj hc
          exact ⟨rfl, rfl, hplanned.2, List.not_mem_nil, fun e' hne =>
            iff_of_false List.not_mem_nil fun hmem => hne (List.mem_singleton.mp hmem)⟩
  | finishing effect effects =>
      dsimp only [DeliveryWorld.finish]
      split
      · exact h
      · next hrefused =>
          split
          · refine h.closeLate hcall rfl ?_ rfl rfl rfl
              (fun _ he => note_did _ outcome he) fun heq => note_returned heq
            exact fun _ hc => nomatch hc
          · next hraised =>
              refine h.closeLate hcall rfl (fun call' hc => ⟨?_, (Option.some.inj hc).symm⟩) rfl
                rfl rfl (fun _ he => note_did _ outcome he) fun heq => note_returned heq
              cases outcome with
              | succeeded => rfl
              | raised => exact absurd rfl hraised
              | refused => exact absurd rfl hrefused

theorem DeliveryInv.mirror {w : DeliveryWorld C} (h : DeliveryInv id w) {c : C} {call : Call}
    (hcall : w.calls c = some call) (now : Int) :
    DeliveryInv id (w.mirror id staleLeaseMs c call now call.stage) := by
  have hplanned := (h.calls c call hcall).planned
  obtain ⟨journal, skipIndexSync, stage⟩ := call
  unfold DeliveryWorld.mirror
  split
  · next runStep items hstage =>
      dsimp only at hstage
      subst hstage
      have hclosed : "S02" ∉ (MainStage.running "S01" runStep items).opens :=
        fun hmem => absurd (List.mem_singleton.mp hmem) (by decide)
      split
      · next life hopen =>
          refine h.openEarly hcall rfl (by decide) hclosed hopen rfl rfl rfl (fun _ he => he) rfl
            hplanned.2 (fun e hne => ?_) (iff_of_true (List.mem_cons_self ..) rfl)
          exact ⟨fun hmem => (List.mem_cons.mp hmem).resolve_left hne,
            fun hmem => List.mem_cons_of_mem _ hmem⟩
      · next life hopen =>
          exact h.openEarly hcall rfl (by decide) hclosed hopen rfl
            (Function.update_eq_self_iff.mpr hcall.symm).symm rfl (fun _ he => he) rfl
            hplanned (fun _ _ => .rfl) (iff_of_false hclosed nofun)
      · exact h
  · exact h

theorem DeliveryInv.gate {w : DeliveryWorld C} (h : DeliveryInv id w) {c : C} {call : Call}
    (hcall : w.calls c = some call) (effectId : String) (now : Int) :
    DeliveryInv id (w.gate id staleLeaseMs c call effectId now call.stage) := by
  have hplanned := (h.calls c call hcall).planned
  obtain ⟨journal, skipIndexSync, stage⟩ := call
  cases stage with
  | going | running | mirroring | gate | late | finishing => exact h
  | gating refused items =>
      dsimp only [DeliveryWorld.gate]
      split
      · exact h
      · next hgate =>
          have hearly : effectId ∉ lateEffects := by
            have hall : ∀ e ∈ ["S23", "S06", "S07", "S23b"], e ∉ lateEffects := by decide
            refine hall effectId ?_
            by_contra hnot
            exact hgate (by simp [hnot])
          split
          · next life hopen =>
              exact h.openEarly hcall rfl hearly List.not_mem_nil hopen rfl rfl rfl
                (fun _ he => he) rfl ⟨hearly, hplanned⟩
                (fun e' hne => iff_of_false (fun hmem => hne (List.mem_singleton.mp hmem))
                  List.not_mem_nil) (iff_of_true (List.mem_singleton.mpr rfl) rfl)
          · next life hopen =>
              exact h.openEarly hcall rfl hearly List.not_mem_nil hopen rfl
                (Function.update_eq_self_iff.mpr hcall.symm).symm rfl (fun _ he => he) rfl
                hplanned (fun _ _ => .rfl) (iff_of_false List.not_mem_nil nofun)
          · split
            · exact h
            · exact h.stop hcall

theorem DeliveryInv.gateEnd {w : DeliveryWorld C} (h : DeliveryInv id w) {c : C} {call : Call}
    (hcall : w.calls c = some call) (blocked : Bool) (now : Int) :
    DeliveryInv id (w.gateEnd id c call blocked now call.stage) := by
  have hplanned := (h.calls c call hcall).planned
  obtain ⟨journal, skipIndexSync, stage⟩ := call
  cases stage with
  | going | running | mirroring | gate | late | finishing => exact h
  | gating refused items =>
      dsimp only [DeliveryWorld.gateEnd]
      split
      · obtain ⟨hthere, hmark, hsteps⟩ := markOperationState_spec id w.life .blocked now
        exact h.drop hcall rfl rfl ⟨hthere, fun hs => (hmark hs).resolve_left (by simp)⟩ hsteps
          fun _ he => he
      · exact h.stayEarly hcall rfl rfl rfl (.refl _) rfl (fun _ he => he) rfl hplanned rfl

theorem mainPlan_early (hasRun skipReflect : Bool) :
    (MainStage.going (mainPlan hasRun skipReflect)).Planned := by
  intro item hmem
  have hall : ∀ a b, ∀ item ∈ mainPlan a b, item = .gates ∨ item = .enqueue ∨
      item = .mark .criticalComplete ∨ item = .mark .deferredQueued ∨
      ∃ m ∈ [("S01", false), ("S05", false), ("S08", true), ("S11", true), ("S14", false),
        ("S15", false), ("S17", false), ("S22", false)], item = .step m.1 m.2 := by decide
  have hstep : ∀ m ∈ [("S01", false), ("S05", false), ("S08", true), ("S11", true),
      ("S14", false), ("S15", false), ("S17", false), ("S22", false)], m.1 ∉ lateEffects := by
    decide
  rcases hall hasRun skipReflect item hmem with rfl | rfl | rfl | rfl | ⟨m, hm, rfl⟩
  · trivial
  · trivial
  · exact nofun
  · exact nofun
  · exact hstep m hm

theorem DeliveryInv.call {w : DeliveryWorld C} (h : DeliveryInv id w) (c : C) {pid now : Int}
    {steps : Dict String StepRecord}
    (hgrant : w.life.journal.readResumeGrant id pid now = some steps)
    (hregular : (∀ c, w.calls c = none) ∧ w.batch = none ∧ ∀ e, ¬ w.Started e)
    (hasRun skipReflect skipIndexSync : Bool) :
    DeliveryInv id (w.setCall c (some
      ⟨⟨pid, some steps, []⟩, skipIndexSync, .going (mainPlan hasRun skipReflect)⟩)) := by
  obtain ⟨hcalls, hbatch, hstarted⟩ := hregular
  have hcases : ∀ b call', (w.setCall c (some ⟨⟨pid, some steps, []⟩, skipIndexSync,
      .going (mainPlan hasRun skipReflect)⟩)).calls b = some call' → b = c ∧
        call' = ⟨⟨pid, some steps, []⟩, skipIndexSync, .going (mainPlan hasRun skipReflect)⟩ := by
    intro b call' hb
    change Function.update w.calls c _ b = some call' at hb
    rw [Function.update_apply] at hb
    split at hb
    · next heq => exact ⟨heq, (Option.some.inj hb).symm⟩
    · rw [hcalls b] at hb
      cases hb
  obtain ⟨rfl, hnot⟩ := readResumeGrant_spec hgrant
  have hshown : Shown w ⟨pid, some w.life.journal.steps, []⟩ :=
    ⟨fun hsome => h.order hsome, fun h => h⟩
  refine ⟨h.there, h.did, fun b call' hb e he => ?_, h.shownBatch, h.kinds, h.order,
    fun b b' _ _ hb hb' => (hcases b _ hb).1.trans (hcases b' _ hb').1.symm, fun b call' hb => ?_,
    fun batch hb => ?_, fun hsucceeded => ?_⟩
  · rw [(hcases b call' hb).2] at he
    exact h.did e he
  · rw [(hcases b call' hb).2]
    exact ⟨mainPlan_early hasRun skipReflect, ⟨hbatch, hshown.congr rfl⟩,
      fun _ _ hmem => (nomatch hmem), fun e _ hs => absurd hs (hstarted e)⟩
  · have hb : w.batch = some batch := hb
    rw [hbatch] at hb
    cases hb
  · have hsucceeded : w.life.inState id .succeeded = true := hsucceeded
    rw [hnot] at hsucceeded
    cases hsucceeded

/-! ## The operator -/

theorem DeliveryInv.rows {w v : DeliveryWorld C} (h : DeliveryInv id w) (hcalls : v.calls = w.calls)
    (hbatch : v.batch = w.batch) (hkeeps : Keeps id w.life v.life) (hdid : ∀ e, w.Did e → v.Did e)
    (hsome : ∀ e, (v.find e).isSome = true → (w.find e).isSome = true)
    (hdone : ∀ e, w.Done e → v.Done e) (hstarted : ∀ e, v.Started e → w.Started e)
    (hkinds : ∀ e row, v.find e = some row → row.state ≠ .notStarted ∧
      (row.state = .indeterminate → isAutoReplayableAfterStarted e = false))
    (hnew : ∀ e, v.Done e → w.Done e ∨ v.Did e ∧
      (∀ c call, w.calls c = some call → e ∉ call.stage.opens) ∧
      (isAutoReplayableAfterStarted e = true → w.Started e)) : DeliveryInv id v := by
  refine ⟨hkeeps.there h.there, fun e he => ?_, fun c call hc e he => ?_, fun batch hb e he => ?_,
    hkinds, fun hs => hdone _ (h.order (hsome _ hs)), fun c c' call call' hc hc' => ?_,
    fun c call hc => ?_, fun batch hb => ?_, fun hsucceeded => ?_⟩
  · exact (hnew e he).elim (fun hw => hdid e (h.did e hw)) fun hv => hv.1
  · rw [hcalls] at hc
    exact hdid e (h.shown c call hc e he)
  · rw [hbatch] at hb
    exact hdid e (h.shownBatch batch hb e he)
  · rw [hcalls] at hc hc'
    exact h.single c c' call call' hc hc'
  · rw [hcalls] at hc
    have hheld := h.calls c call hc
    refine ⟨hheld.planned, hheld.place.mono (hdone _) (hsome _) (fun hv => ?_) fun _ => hbatch,
      fun e he hmem hv => ?_, fun e he hs => hheld.started e he (hstarted e hs)⟩
    · refine (hnew "S20" hv).elim (fun hw => hw) fun ⟨_, hfree, hrun⟩ => ?_
      exact absurd (hheld.started "S20" (List.mem_cons_self ..) (hrun (by decide)))
        (hfree c call hc)
    · exact (hnew e hv).elim (hheld.opened e he hmem) fun hfree => hfree.2.1 c call hc hmem
  · rw [hbatch] at hb
    rw [hcalls]
    obtain ⟨hholds, hlate⟩ := h.batch batch hb
    exact ⟨⟨fun e he hs => hdone e (hholds.critical e he (hsome e hs)), hholds.pending,
      fun herrors hpassed hs => hdone _ (hholds.trust herrors hpassed (hsome _ hs)),
      fun ha herrors => hdone _ (hholds.event ha herrors)⟩, hlate⟩
  · rw [hcalls, hbatch]
    obtain ⟨hrows, hrest⟩ := h.final (hkeeps.succeeded hsucceeded)
    exact ⟨fun e he hs => hdone e (hrows e he (hsome e hs)), hrest⟩

theorem classifyRestart_spec (e : String) (row : StepRecord) :
    classifyRestart e row = row ∨ (row.state = .started ∧
      (classifyRestart e row).state = .indeterminate ∧ isAutoReplayableAfterStarted e = false) := by
  unfold classifyRestart
  split
  · next h => exact .inr ⟨h.1, rfl, h.2⟩
  · exact .inl rfl

theorem DeliveryInv.classified {w v : DeliveryWorld C} (h : DeliveryInv id w)
    (hcalls : v.calls = w.calls) (hbatch : v.batch = w.batch) (hkeeps : Keeps id w.life v.life)
    (hdid : ∀ e, w.Did e → v.Did e) (hsteps : v.steps = Dict.mapValues classifyRestart w.steps) :
    DeliveryInv id v := by
  have hfind : ∀ e, v.find e = (w.find e).map (classifyRestart e) := fun e => by
    rw [DeliveryWorld.find, hsteps, Dict.lookup_mapValues]
    rfl
  have hback : ∀ e row', v.find e = some row' → ∃ row, w.find e = some row ∧ (row' = row ∨
      row.state = .started ∧ row'.state = .indeterminate ∧
        isAutoReplayableAfterStarted e = false) := by
    intro e row' hrow'
    rw [hfind] at hrow'
    obtain ⟨row, hrow, rfl⟩ := Option.map_eq_some_iff.mp hrow'
    exact ⟨row, hrow, classifyRestart_spec e row⟩
  have hold : ∀ e state, state ≠ .indeterminate →
      (∃ row', v.find e = some row' ∧ row'.state = state) →
        ∃ row, w.find e = some row ∧ row.state = state := by
    rintro e state hne ⟨row', hrow', hstate⟩
    obtain ⟨row, hrow, rfl | ⟨-, hind, -⟩⟩ := hback e row' hrow'
    · exact ⟨row', hrow, hstate⟩
    · exact absurd (hstate.symm.trans hind) hne
  refine h.rows hcalls hbatch hkeeps hdid (fun e hsome => ?_) (fun e hshown => ?_)
    (fun e => hold e .started (by simp)) (fun e row' hrow' => ?_)
    fun e hdone => .inl (hold e .succeeded (by simp) hdone)
  · rw [hfind, Option.isSome_map] at hsome
    exact hsome
  · obtain ⟨row, hrow, hstate⟩ := hshown
    refine ⟨classifyRestart e row, by rw [hfind, hrow]; rfl, ?_⟩
    rcases classifyRestart_spec e row with heq | ⟨hs, -⟩
    · rw [heq]
      exact hstate
    · rw [hs] at hstate
      cases hstate
  · obtain ⟨row, hrow, rfl | ⟨-, hind, hauto⟩⟩ := hback e row' hrow'
    · exact h.kinds e row' hrow
    · rw [hind]
      exact ⟨by simp, fun _ => hauto⟩

theorem DeliveryInv.reconciled {w v : DeliveryWorld C} (h : DeliveryInv id w)
    (hcalls : v.calls = w.calls) (hbatch : v.batch = w.batch) (hkeeps : Keeps id w.life v.life)
    (hdid : ∀ e, w.Did e → v.Did e) {e₀ : String} {prior row : StepRecord}
    (hprior : w.find e₀ = some prior)
    (hunsettled : prior.state = .started ∨ prior.state = .indeterminate)
    (hfree : ∀ c call, w.calls c = some call → e₀ ∉ call.stage.opens)
    (hsteps : v.steps = Dict.set w.steps e₀ row)
    (hrow : row.state = .succeeded ∨ row.state = .failed)
    (hconfirmed : row.state = .succeeded → v.Did e₀) : DeliveryInv id v := by
  obtain ⟨hself, hfind⟩ := find_set hsteps
  have hchange : Change id w v e₀ := .of_set hkeeps hsteps (.inr hrow) hdid hconfirmed
  refine h.rows hcalls hbatch hkeeps hdid (fun e hsome => ?_) (fun e hdone => ?_)
    (fun e hstarted => ?_) (hchange.kinds h.kinds) fun e hdone => ?_
  · by_cases heq : e = e₀
    · rw [heq, hprior]
      rfl
    · rw [hfind e heq] at hsome
      exact hsome
  · by_cases heq : e = e₀
    · subst heq
      obtain ⟨row', hrow', hstate⟩ := hdone
      obtain rfl := Option.some.inj (hprior.symm.trans hrow')
      rw [hstate] at hunsettled
      exact absurd hunsettled (by decide)
    · exact hdone.congr (hfind e heq)
  · by_cases heq : e = e₀
    · subst heq
      obtain ⟨row', hrow', hstate⟩ := hstarted
      obtain rfl := Option.some.inj (hself.symm.trans hrow')
      rw [hstate] at hrow
      exact absurd hrow (by decide)
    · exact hstarted.congr (hfind e heq).symm
  · by_cases heq : e = e₀
    · subst heq
      refine .inr ⟨hchange.row hdone, hfree, fun hauto => ⟨prior, hprior, ?_⟩⟩
      refine hunsettled.resolve_right fun hind => ?_
      rw [(h.kinds e prior hprior).2 hind] at hauto
      cases hauto
    · exact .inl (hdone.congr (hfind e heq).symm)

theorem DeliveryInv.operate {w : DeliveryWorld C} (h : DeliveryInv id w) (digests : Digests)
    {deed : LifeDeed} (hdeed : deed.recovers = true)
    (hregular : RegularDelivery w (.operator deed)) :
    DeliveryInv id (w.operate id digests deed) := by
  have hexec : Keeps id w.life (w.life.exec id digests deed) ∧
      Recovered w.life.journal.steps (w.life.exec id digests deed).journal.steps deed :=
    exec_recovers hdeed
  obtain ⟨hkeeps, hrecovered⟩ := hexec
  have hconfirmed : ∀ e ∈ w.confirmed, e ∈ (w.operate id digests deed).confirmed := by
    intro e he
    unfold DeliveryWorld.operate
    dsimp only
    split
    · split
      · exact List.mem_append_left _ he
      · exact he
    · exact he
  have hdid : ∀ e, w.Did e → (w.operate id digests deed).Did e :=
    fun e he => he.imp (fun hmem => hmem) (hconfirmed e)
  generalize hsteps : (w.life.exec id digests deed).journal.steps = steps' at hrecovered
  cases hrecovered with
  | same hsame =>
      have hfind : ∀ e, (w.operate id digests deed).find e = w.find e :=
        DeliveryWorld.find_eq (hsteps.trans hsame)
      refine h.rows rfl rfl hkeeps hdid (fun e hsome => hfind e ▸ hsome)
        (fun e hdone => hdone.congr (hfind e)) (fun e hs => hs.congr (hfind e).symm)
        (fun e row hrow => h.kinds e row ((hfind e).symm.trans hrow))
        fun e hdone => .inl (hdone.congr (hfind e).symm)
  | classified hclassified => exact h.classified rfl rfl hkeeps hdid (hsteps.trans hclassified)
  | @reconciled auth e₀ applied now prior row hprior hunsettled hrow hset =>
      refine h.reconciled rfl rfl hkeeps hdid hprior hunsettled hregular (hsteps.trans hset) ?_
        fun hsucceeded => .inr ?_
      · rw [hrow]
        cases applied <;> decide
      · have happlied : applied = true := by
          cases applied with
          | true => rfl
          | false =>
              rw [hrow] at hsucceeded
              cases hsucceeded
        subst happlied
        have hne : (w.life.exec id digests (.reconcileEffect auth e₀ true now)).journal.steps ≠
            w.life.journal.steps := by
          intro heq
          have hlookup := Dict.lookup_set_self w.life.journal.steps e₀ row
          rw [← hset, ← hsteps, heq, hprior] at hlookup
          rw [Option.some.inj hlookup, hsucceeded] at hunsettled
          exact absurd hunsettled (by decide)
        unfold DeliveryWorld.operate
        dsimp only
        rw [if_pos hne]
        exact List.mem_append_right _ (List.mem_singleton.mpr rfl)

/-! ## Runs -/

theorem DeliveryInv.crash {w v : DeliveryWorld C} (h : DeliveryInv id w)
    (hcalls : v.calls = fun _ => none) (hbatch : v.batch = none) (hkeeps : Keeps id w.life v.life)
    (hdid : ∀ e, w.Did e → v.Did e) (hsteps : v.steps = w.steps) : DeliveryInv id v := by
  have hfind : ∀ e, v.find e = w.find e := DeliveryWorld.find_eq hsteps
  have hnone : ∀ c call, v.calls c ≠ some call := by
    intro c call hc
    rw [hcalls] at hc
    cases hc
  have hnoBatch : ∀ batch, v.batch ≠ some batch := by
    intro batch hb
    rw [hbatch] at hb
    cases hb
  refine ⟨hkeeps.there h.there, fun e he => hdid e (h.did e (he.congr (hfind e).symm)),
    fun c call hc => absurd hc (hnone c call), fun batch hb => absurd hb (hnoBatch batch),
    fun e row hrow => h.kinds e row ((hfind e).symm.trans hrow), fun hsome => ?_,
    fun c _ call _ hc => absurd hc (hnone c call), fun c call hc => absurd hc (hnone c call),
    fun batch hb => absurd hb (hnoBatch batch), fun hsucceeded => ⟨fun e he hsome => ?_, hbatch,
      fun c call hc => absurd hc (hnone c call)⟩⟩
  · rw [hfind] at hsome
    exact (h.order hsome).congr (hfind _)
  · rw [hfind] at hsome
    exact ((h.final (hkeeps.succeeded hsucceeded)).1 e he hsome).congr (hfind e)

theorem DeliveryInv.exec {w : DeliveryWorld C} (h : DeliveryInv id w) (digests : Digests)
    {deed : DeliveryDeed C} (hregular : RegularDelivery w deed) :
    DeliveryInv id (w.exec id digests deferredDigest staleLeaseMs queueDepthMax deed) := by
  cases deed with
  | call c pid now hasRun skipReflect skipIndexSync =>
      dsimp only [DeliveryWorld.exec]
      split
      · exact h
      · split
        · next steps hgrant => exact h.call c hgrant hregular hasRun skipReflect skipIndexSync
        · exact h
  | act c now alive =>
      dsimp only [DeliveryWorld.exec]
      split
      · next call hcall => exact h.mainAct hcall (hregular call hcall) now alive
      · exact h
  | finish c outcome now =>
      dsimp only [DeliveryWorld.exec]
      split
      · next call hcall => exact h.finish hcall (hregular call hcall) now
      · exact h
  | mirror c now =>
      dsimp only [DeliveryWorld.exec]
      split
      · next call hcall => exact h.mirror hcall now
      · exact h
  | gate c effectId now =>
      dsimp only [DeliveryWorld.exec]
      split
      · next call hcall => exact h.gate hcall effectId now
      · exact h
  | gateEnd c blocked now =>
      dsimp only [DeliveryWorld.exec]
      split
      · next call hcall => exact h.gateEnd hcall blocked now
      · exact h
  | stop c =>
      dsimp only [DeliveryWorld.exec]
      cases hcall : w.calls c with
      | some call => exact h.stop hcall
      | none =>
          rw [DeliveryWorld.setCall, Function.update_eq_self_iff.mpr hcall.symm]
          exact h
  | batchAct now works =>
      dsimp only [DeliveryWorld.exec]
      split
      · next batch hb => exact h.batchAct hb (hregular batch hb) now works
      · exact h
  | batchFinish outcome now =>
      dsimp only [DeliveryWorld.exec]
      split
      · next batch hb => exact h.batchFinish hb (hregular batch hb) now
      · exact h
  | timeout =>
      dsimp only [DeliveryWorld.exec]
      split
      · next batch hb =>
          split
          · next hstage =>
              have hchange : Change id w (w.failBatch batch .results) "" :=
                h.same (w.failBatch batch .results) (.refl _) rfl (fun _ he => he) ""
              exact h.failed hb (by decide) rfl rfl hchange (List.nil_subset _)
          · exact h
      · exact h
  | watchdog =>
      dsimp only [DeliveryWorld.exec]
      split
      · exact h.rows rfl rfl (.refl _) (fun _ he => he) (fun _ hs => hs) (fun _ he => he)
          (fun _ hs => hs) h.kinds fun _ he => .inl he
      · exact h
  | crash => exact h.crash rfl rfl (.refl _) (fun _ he => he) rfl
  | operator deed =>
      dsimp only [DeliveryWorld.exec]
      split
      · next hdeed => exact h.operate digests hdeed hregular
      · exact h

/-- A regular step. -/
def RegularDeliveryStep (id : String) (digests : Digests) (deferredDigest : String)
    (staleLeaseMs : Int) (queueDepthMax : Nat) (w : DeliveryWorld C) (deed : DeliveryDeed C)
    (w' : DeliveryWorld C) : Prop :=
  RegularDelivery w deed ∧
    w' = w.exec id digests deferredDigest staleLeaseMs queueDepthMax deed

theorem DeliveryInv.claimed {op : Operation} (hid : op.operationId = id)
    (hstate : op.state ≠ .succeeded) (c : C) (pid : Int)
    (hasRun skipReflect skipIndexSync : Bool) :
    DeliveryInv id (.claimed op c pid hasRun skipReflect skipIndexSync) := by
  generalize hw : DeliveryWorld.claimed op c pid hasRun skipReflect skipIndexSync = w
  have hrow : w.life.row id = some op := by
    rw [← hw]
    change List.find? (fun op => decide (op.operationId = id)) [op] = some op
    rw [List.find?_cons_of_pos]
    exact decide_eq_true hid
  have hfind : ∀ e, w.find e = none := fun e => by rw [← hw]; rfl
  have hundone : ∀ e, ¬ w.Done e := fun e ⟨row, hrow, _⟩ => by
    rw [hfind] at hrow
    cases hrow
  have hbatch : w.batch = none := by rw [← hw]; rfl
  have hcases : ∀ b call, w.calls b = some call →
      b = c ∧ call = ⟨⟨pid, none, []⟩, skipIndexSync, .going (mainPlan hasRun skipReflect)⟩ := by
    intro b call hb
    rw [← hw] at hb
    dsimp only [DeliveryWorld.claimed] at hb
    split at hb
    · next heq => exact ⟨heq, (Option.some.inj hb).symm⟩
    · cases hb
  have hunshown : ∀ journal : Journal, journal.resumeSteps = none →
      ∀ e, ¬ journal.Succeeded e := by
    rintro journal hnone e ⟨prior, hprior, -⟩
    rw [hnone] at hprior
    cases hprior
  refine ⟨by rw [hrow]; rfl, fun e he => absurd he (hundone e), fun b call hb e he => ?_,
    fun batch hb => ?_, fun e row hr => ?_, fun hsome => ?_,
    fun b b' _ _ hb hb' => (hcases b _ hb).1.trans (hcases b' _ hb').1.symm, fun b call hb => ?_,
    fun batch hb => ?_, fun hsucceeded => ?_⟩
  · rw [(hcases b call hb).2] at he
    exact absurd he (hunshown _ rfl e)
  · rw [hbatch] at hb
    cases hb
  · rw [hfind] at hr
    cases hr
  · rw [hfind] at hsome
    cases hsome
  · rw [(hcases b call hb).2]
    refine ⟨mainPlan_early hasRun skipReflect, ⟨hbatch, fun hsome => ?_, fun hd => ?_⟩,
      fun _ _ hmem => (nomatch hmem), fun e _ ⟨row, hr, _⟩ => ?_⟩
    · rw [hfind] at hsome
      cases hsome
    · exact absurd hd (hundone _)
    · rw [hfind] at hr
      cases hr
  · rw [hbatch] at hb
    cases hb
  · rw [inState_of_row hrow] at hsucceeded
    exact absurd (of_decide_eq_true hsucceeded) hstate

end

/-! ### What is caught inside a boundary -/

def attemptExec : DeliveryWorld Unit → DeliveryDeed Unit → DeliveryWorld Unit :=
  DeliveryWorld.exec sampleId plainDigests "" staleLease 4

def firstAttempt : DeliveryWorld Unit := .claimed lifeOperation () 7 true false true

def act : DeliveryDeed Unit := .act () sampleNow fun _ => true

def finishes (outcome : Outcome) : DeliveryDeed Unit := .finish () outcome sampleNow

/-- The call comes to `S08`, and that raises. -/
def reflectDeeds : List (DeliveryDeed Unit) :=
  [act, finishes .succeeded, act, finishes .succeeded, act, .gateEnd () false sampleNow, act,
    finishes .raised]

/-- The mirror of the phase raises, and everything else succeeds. -/
def mirrorDeeds : List (DeliveryDeed Unit) :=
  [act, .mirror () sampleNow, finishes .raised, finishes .succeeded, act, finishes .succeeded, act,
    .gateEnd () false sampleNow] ++
    (List.replicate 6 [act, finishes .succeeded]).flatten ++ List.replicate 4 act ++
    (List.replicate 3 [act, finishes .succeeded]).flatten ++ [.batchAct sampleNow true] ++
    (List.replicate 9 [.batchAct sampleNow true, .batchAct sampleNow true,
      .batchFinish .succeeded sampleNow]).flatten ++
    [.batchAct sampleNow true, .batchAct sampleNow true, .batchFinish .succeeded sampleNow,
      .batchAct sampleNow true] ++
    (List.replicate 2 [.batchAct sampleNow true, .batchFinish .succeeded sampleNow]).flatten ++
    [.batchAct sampleNow true]

end TrwMcp.Delivery
