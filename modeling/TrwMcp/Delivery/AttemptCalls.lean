import TrwMcp.Delivery.AttemptSpecs

/-!
# The steps of a call

Before the launch a call walks its effects with no batch beside it; after it, it comes to `S18` and
`S20`, each of which is done where the later one is. What a call was shown it was shown of rows that
were there.
-/

set_option linter.unusedSectionVars false

namespace TrwMcp.Delivery

open Lib

/-! ## The invariant -/

/-- The required effects that are opened after the launch. -/
def lateEffects : List String := ["S18", "S20", "D16"]

/-- The effects in whose boundary a call is. -/
def MainStage.opens : MainStage → List String
  | .running effectId _ _ | .gate effectId _ _ => [effectId]
  | .mirroring _ => ["S02", "S01"]
  | .finishing effect _ => [effect.effectId]
  | .going _ | .gating _ _ | .late _ => []

def MainStage.early : MainStage → Bool
  | .late _ | .finishing _ _ => false
  | _ => true

def MainItem.Early : MainItem → Prop
  | .step effectId _ => effectId ∉ lateEffects
  | .mark state => state ≠ .succeeded
  | .gates | .enqueue => True

/-- What is opened before the launch. -/
def MainStage.Planned : MainStage → Prop
  | .going items | .mirroring items | .gating _ items => ∀ item ∈ items, item.Early
  | .running effectId _ items | .gate effectId _ items =>
      effectId ∉ lateEffects ∧ ∀ item ∈ items, item.Early
  | .late _ | .finishing _ _ => True

/-- The effects the batch has still to come to the end of. -/
def BatchStage.pending : BatchStage → List String
  | .launched skipIndexSync => deferredRoster skipIndexSync
  | .roster effects => effects
  | .opened effectId effects | .running effectId effects => effectId :: effects
  | _ => []

/-- The batch has seen the end of `S20`. -/
def BatchStage.after : BatchStage → Bool
  | .results | .writing | .audit | .appending | .closing => true
  | _ => false

section

variable {C : Type} [DecidableEq C]

@[grind =] def DeliveryWorld.find (w : DeliveryWorld C) (effectId : String) : Option StepRecord :=
  Dict.lookup w.steps effectId

def DeliveryWorld.Done (w : DeliveryWorld C) (effectId : String) : Prop :=
  ∃ row, w.find effectId = some row ∧ row.state = .succeeded

def DeliveryWorld.Started (w : DeliveryWorld C) (effectId : String) : Prop :=
  ∃ row, w.find effectId = some row ∧ row.state = .started

/-- The effect's function returned, or an operator confirmed the effect. -/
def DeliveryWorld.Did (w : DeliveryWorld C) (effectId : String) : Prop :=
  effectId ∈ w.returned ∨ effectId ∈ w.confirmed

/-- Where `S20` has a row, a call that has still to come to `S18` was shown it as succeeded; and so
for `S20` itself. -/
structure Shown (w : DeliveryWorld C) (journal : Journal) : Prop where
  mark : (w.find "S20").isSome = true → journal.Succeeded "S18"
  event : w.Done "S20" → journal.Succeeded "S20"

def Place (w : DeliveryWorld C) (journal : Journal) : MainStage → Prop
  | .late [.mark, .nudge, .event] => Shown w journal
  | .finishing .mark [.nudge, .event] => w.find "S20" = none
  | .late [.nudge, .event] | .finishing .nudge [.event] | .late [.event] =>
      w.Done "S18" ∧ (w.Done "S20" → journal.Succeeded "S20")
  | .finishing .event [] => w.Done "S18"
  | .late [] => True
  | .late _ | .finishing _ _ => False
  | _ => w.batch = none ∧ Shown w journal

structure CallHolds (w : DeliveryWorld C) (call : Call) : Prop where
  planned : call.stage.Planned
  place : Place w call.journal call.stage
  opened : ∀ e ∈ requiredEffects, e ∈ call.stage.opens → ¬ w.Done e
  started : ∀ e ∈ "S20" :: criticalEffects, w.Started e → e ∈ call.stage.opens

structure BatchHolds (w : DeliveryWorld C) (batch : Batch) : Prop where
  critical : ∀ e ∈ criticalEffects, (w.find e).isSome = true → w.Done e
  pending : ∀ e ∈ batch.stage.pending, e ∈ requiredEffects → e = "D16"
  trust : batch.errors = 0 → "D16" ∉ batch.stage.pending → (w.find "D16").isSome = true →
    w.Done "D16"
  event : batch.stage.after = true → batch.errors = 0 → w.Done "S20"

structure DeliveryInv (id : String) (w : DeliveryWorld C) : Prop where
  there : (w.life.row id).isSome = true
  did : ∀ e, w.Done e → w.Did e
  shown : ∀ c call, w.calls c = some call → ∀ e, call.journal.Succeeded e → w.Did e
  shownBatch : ∀ batch, w.batch = some batch → ∀ e, batch.journal.Succeeded e → w.Did e
  kinds : ∀ e row, w.find e = some row → row.state ≠ .notStarted ∧
    (row.state = .indeterminate → isAutoReplayableAfterStarted e = false)
  order : (w.find "S20").isSome = true → w.Done "S18"
  single : ∀ c c' call call', w.calls c = some call → w.calls c' = some call' → c = c'
  calls : ∀ c call, w.calls c = some call → CallHolds w call
  batch : ∀ batch, w.batch = some batch → BatchHolds w batch ∧
    ∀ c call, w.calls c = some call → call.stage.early = false
  final : w.life.inState id .succeeded = true →
    (∀ e ∈ requiredEffects, (w.find e).isSome = true → w.Done e) ∧ w.batch = none ∧
      ∀ c call, w.calls c = some call → call.stage.early = false ∧
        ∀ e ∈ requiredEffects, e ∉ call.stage.opens

/-- Under `_run_step` no effect raises. -/
def RegularFinish (outcome : Outcome) : MainStage → Prop
  | .running _ true _ => outcome ≠ .raised
  | _ => True

/-- A batch is launched when no required effect before it is left as failed, and none after it is
passed over as failed. -/
def RegularMain (w : DeliveryWorld C) (call : Call) : MainStage → Prop
  | .going [] => ∀ e ∈ criticalEffects, ∀ row, w.find e = some row → row.state ≠ .failed
  | .late (effect :: _) =>
      effect.effectId ∈ requiredEffects → call.journal.verdict effect.effectId ≠ .skip
  | _ => True

/-- The batch passes over no required effect as failed, runs an effect only while it is not
cancelled, and waits for `S20` until that has not failed. -/
def RegularBatch (w : DeliveryWorld C) (batch : Batch) : BatchStage → Prop
  | .roster (effectId :: _) =>
      effectId ∈ requiredEffects → batch.journal.verdict effectId ≠ .skip
  | .opened _ _ => w.cancel = false
  | .waiting => ∀ row, w.find "S20" = some row → row.state ≠ .failed
  | _ => True

/-- A call is let in when no other one and no batch is at work and no step is started, what runs
inside `_run_step` does not raise, and an operator reconciles no effect that a call is running. -/
def RegularDelivery (w : DeliveryWorld C) : DeliveryDeed C → Prop
  | .call _ _ _ _ _ _ =>
      (∀ c, w.calls c = none) ∧ w.batch = none ∧ ∀ e, ¬ w.Started e
  | .act c _ _ => ∀ call, w.calls c = some call → RegularMain w call call.stage
  | .finish c outcome _ => ∀ call, w.calls c = some call → RegularFinish outcome call.stage
  | .batchAct _ _ => ∀ batch, w.batch = some batch → RegularBatch w batch batch.stage
  | .batchFinish outcome _ => ∀ batch, w.batch = some batch →
      ∀ e effects, batch.stage = .running e effects → outcome ≠ .raised
  | .operator (.reconcileEffect _ effectId _ _) =>
      ∀ c call, w.calls c = some call → effectId ∉ call.stage.opens
  | _ => True

/-! ## Frames -/

variable {id : String}

theorem DeliveryWorld.Done.isSome {w : DeliveryWorld C} {e : String} (h : w.Done e) :
    (w.find e).isSome = true := by
  obtain ⟨row, hrow, -⟩ := h
  rw [hrow]
  rfl

theorem DeliveryWorld.Done.congr {w v : DeliveryWorld C} {e : String} (h : w.Done e)
    (hfind : v.find e = w.find e) : v.Done e := by
  obtain ⟨row, hrow, hstate⟩ := h
  exact ⟨row, hfind.trans hrow, hstate⟩

theorem DeliveryWorld.Started.congr {w v : DeliveryWorld C} {e : String} (h : w.Started e)
    (hfind : v.find e = w.find e) : v.Started e := by
  obtain ⟨row, hrow, hstate⟩ := h
  exact ⟨row, hfind.trans hrow, hstate⟩

theorem find_set {w v : DeliveryWorld C} {e₀ : String} {row : StepRecord}
    (h : v.steps = Dict.set w.steps e₀ row) :
    v.find e₀ = some row ∧ ∀ e, e ≠ e₀ → v.find e = w.find e := by
  refine ⟨?_, fun e he => ?_⟩
  · rw [DeliveryWorld.find, h, Dict.lookup_set_self]
  · rw [DeliveryWorld.find, h, Dict.lookup_set_ne _ he]
    rfl

theorem Place.early {w : DeliveryWorld C} {journal : Journal} {stage : MainStage}
    (h : Place w journal stage) (hearly : stage.early = true) :
    w.batch = none ∧ Shown w journal := by
  cases stage with
  | going | running | mirroring | gating | gate => exact h
  | late | finishing => cases hearly

theorem Place.of_early {w : DeliveryWorld C} {journal : Journal} {stage : MainStage}
    (hearly : stage.early = true) (h : w.batch = none ∧ Shown w journal) :
    Place w journal stage := by
  cases stage with
  | going | running | mirroring | gating | gate => exact h
  | late | finishing => cases hearly

theorem Shown.congr {w v : DeliveryWorld C} {journal : Journal} (h : Shown w journal)
    (hfind : v.find "S20" = w.find "S20") : Shown v journal :=
  ⟨fun hsome => h.mark (hfind ▸ hsome), fun hdone => h.event (hdone.congr hfind.symm)⟩

/-- A step that changes the row of one effect at most, and succeeds no operation. -/
structure Change (id : String) (w v : DeliveryWorld C) (e₀ : String) : Prop where
  keeps : Keeps id w.life v.life
  find : ∀ e, e ≠ e₀ → v.find e = w.find e
  kind : ∀ row, v.find e₀ = some row → row.state ≠ .notStarted ∧
    (row.state = .indeterminate → isAutoReplayableAfterStarted e₀ = false)
  did : ∀ e, w.Did e → v.Did e
  row : v.Done e₀ → v.Did e₀

theorem Change.done {w v : DeliveryWorld C} {e₀ : String} (h : Change id w v e₀)
    (hw : ∀ e, w.Done e → w.Did e) (e : String) (he : v.Done e) : v.Did e := by
  by_cases heq : e = e₀
  · exact heq ▸ h.row (heq ▸ he)
  · exact h.did e (hw e (he.congr (h.find e heq).symm))

theorem Change.kinds {w v : DeliveryWorld C} {e₀ : String} (h : Change id w v e₀)
    (hw : ∀ e row, w.find e = some row → row.state ≠ .notStarted ∧
      (row.state = .indeterminate → isAutoReplayableAfterStarted e = false))
    (e : String) (row : StepRecord) (hrow : v.find e = some row) : row.state ≠ .notStarted ∧
      (row.state = .indeterminate → isAutoReplayableAfterStarted e = false) := by
  by_cases heq : e = e₀
  · exact heq ▸ h.kind row (heq ▸ hrow)
  · exact hw e row ((h.find e heq).symm.trans hrow)

theorem DeliveryInv.same {w : DeliveryWorld C} (h : DeliveryInv id w) (v : DeliveryWorld C)
    (hkeeps : Keeps id w.life v.life) (hsteps : v.steps = w.steps)
    (hdid : ∀ e, w.Did e → v.Did e) (e₀ : String) : Change id w v e₀ := by
  have hfind : ∀ e, v.find e = w.find e := fun e => by rw [DeliveryWorld.find, hsteps]; rfl
  refine ⟨hkeeps, fun e _ => hfind e, fun row hrow => ?_, hdid, fun hdone => ?_⟩
  · exact h.kinds e₀ row ((hfind e₀).symm.trans hrow)
  · exact hdid e₀ (h.did e₀ (hdone.congr (hfind e₀).symm))

theorem Change.of_set {w v : DeliveryWorld C} {e₀ : String} {row : StepRecord}
    (hkeeps : Keeps id w.life v.life) (hsteps : v.steps = Dict.set w.steps e₀ row)
    (hkind : row.state = .started ∨ row.state = .succeeded ∨ row.state = .failed)
    (hdid : ∀ e, w.Did e → v.Did e) (hrow : row.state = .succeeded → v.Did e₀) :
    Change id w v e₀ := by
  obtain ⟨hself, hfind⟩ := find_set hsteps
  refine ⟨hkeeps, hfind, fun row' hrow' => ?_, hdid, fun ⟨row', hrow', hstate⟩ => ?_⟩
  · obtain rfl := Option.some.inj (hself.symm.trans hrow')
    rcases hkind with hkind | hkind | hkind <;> rw [hkind] <;>
      exact ⟨by decide, nofun⟩
  · obtain rfl := Option.some.inj (hself.symm.trans hrow')
    exact hrow hstate

theorem DeliveryInv.step {w v : DeliveryWorld C} (h : DeliveryInv id w) {c : C} {call : Call}
    (hcall : w.calls c = some call) {new : Option Call} {e₀ : String}
    (hcalls : v.calls = Function.update w.calls c new) (hbatch : v.batch = w.batch)
    (hchange : Change id w v e₀)
    (horder : (v.find "S20").isSome = true → v.Done "S18")
    (hnew : ∀ call', new = some call' → call'.journal = call.journal ∧ CallHolds v call' ∧
      ((∃ batch, w.batch = some batch) → call'.stage.early = false))
    (hheld : ∀ batch, w.batch = some batch → BatchHolds w batch → BatchHolds v batch)
    (hfinal : v.life.inState id .succeeded = true → w.life.inState id .succeeded = true →
      (e₀ ∈ requiredEffects → (v.find e₀).isSome = true → v.Done e₀) ∧
        ∀ call', new = some call' → call'.stage.early = false ∧
          ∀ e ∈ requiredEffects, e ∉ call'.stage.opens) : DeliveryInv id v := by
  have hcases : ∀ b call', v.calls b = some call' → b = c ∧ new = some call' := by
    intro b call' hb
    rw [hcalls, Function.update_apply] at hb
    split at hb
    · next heq => exact ⟨heq, hb⟩
    · next hne => exact absurd (h.single b c _ _ hb hcall) hne
  refine ⟨hchange.keeps.there h.there, hchange.done h.did, fun b call' hb e he => ?_,
    fun batch hb e he => ?_, hchange.kinds h.kinds, horder, fun b b' call₁ call₂ hb hb' => ?_,
    fun b call' hb => ?_, fun batch hb => ⟨?_, fun b call' hc => ?_⟩,
    fun hsucceeded => ⟨fun e he hsome => ?_, ?_, fun b call' hb => ?_⟩⟩
  · rw [(hnew call' (hcases b call' hb).2).1] at he
    exact hchange.did e (h.shown c call hcall e he)
  · rw [hbatch] at hb
    exact hchange.did e (h.shownBatch batch hb e he)
  · exact (hcases b call₁ hb).1.trans (hcases b' call₂ hb').1.symm
  · exact (hnew call' (hcases b call' hb).2).2.1
  · rw [hbatch] at hb
    exact hheld batch hb (h.batch batch hb).1
  · rw [hbatch] at hb
    exact (hnew call' (hcases b call' hc).2).2.2 ⟨batch, hb⟩
  · have hbefore := hchange.keeps.succeeded hsucceeded
    by_cases heq : e = e₀
    · exact heq ▸ (hfinal hsucceeded hbefore).1 (heq ▸ he) (heq ▸ hsome)
    · rw [hchange.find e heq] at hsome
      exact ((h.final hbefore).1 e he hsome).congr (hchange.find e heq)
  · rw [hbatch]
    exact (h.final (hchange.keeps.succeeded hsucceeded)).2.1
  · exact (hfinal hsucceeded (hchange.keeps.succeeded hsucceeded)).2 call' (hcases b call' hb).2

theorem DeliveryInv.earlyStep {w v : DeliveryWorld C} (h : DeliveryInv id w) {c : C} {call : Call}
    (hcall : w.calls c = some call) (hearly : call.stage.early = true) {new : Option Call}
    {e₀ : String} (he₀ : e₀ ∉ lateEffects) (hcalls : v.calls = Function.update w.calls c new)
    (hbatch : v.batch = w.batch) (hchange : Change id w v e₀)
    (hnew : ∀ call', new = some call' → call'.journal = call.journal ∧
      call'.stage.early = true ∧ call'.stage.Planned ∧
      (∀ e, e ≠ e₀ → (e ∈ call'.stage.opens ↔ e ∈ call.stage.opens)) ∧
      (e₀ ∈ requiredEffects → e₀ ∈ call'.stage.opens → ¬ v.Done e₀) ∧
      (e₀ ∈ criticalEffects → v.Started e₀ → e₀ ∈ call'.stage.opens)) : DeliveryInv id v := by
  have hheld := h.calls c call hcall
  obtain ⟨hnone, hshown⟩ := hheld.place.early hearly
  have hmark : v.find "S18" = w.find "S18" := hchange.find _ fun heq => he₀ (heq ▸ by decide)
  have hevent : v.find "S20" = w.find "S20" := hchange.find _ fun heq => he₀ (heq ▸ by decide)
  refine h.step hcall hcalls hbatch hchange (fun hsome => ?_)
    (fun call' hc => ?_) (fun batch hb => ?_) fun _ hsucceeded => ?_
  · rw [hevent] at hsome
    exact (h.order hsome).congr hmark
  · obtain ⟨hjournal, hearly', hplanned, hopens, hopened, hstarted⟩ := hnew call' hc
    refine ⟨hjournal, ⟨hplanned, .of_early hearly' ⟨hbatch.trans hnone, ?_⟩, fun e he hopen => ?_,
      fun e he hstart => ?_⟩, fun ⟨batch, hb⟩ => ?_⟩
    · rw [hjournal]
      exact hshown.congr hevent
    · by_cases heq : e = e₀
      · exact heq ▸ hopened (heq ▸ he) (heq ▸ hopen)
      · exact fun hdone => hheld.opened e he ((hopens e heq).mp hopen)
          (hdone.congr (hchange.find e heq).symm)
    · by_cases heq : e = e₀
      · rcases List.mem_cons.mp he with hS20 | hcritical
        · exact absurd (heq ▸ hS20 ▸ by decide) he₀
        · exact heq ▸ hstarted (heq ▸ hcritical) (heq ▸ hstart)
      · exact (hopens e heq).mpr (hheld.started e he (hstart.congr (hchange.find e heq).symm))
    · rw [hnone] at hb
      cases hb
  · rw [hnone] at hb
    cases hb
  · have hlate := ((h.final hsucceeded).2.2 c call hcall).1
    rw [hearly] at hlate
    cases hlate

theorem DeliveryInv.drop {w v : DeliveryWorld C} (h : DeliveryInv id w) {c : C} {call : Call}
    (hcall : w.calls c = some call) (hcalls : v.calls = Function.update w.calls c none)
    (hbatch : v.batch = w.batch) (hkeeps : Keeps id w.life v.life) (hsteps : v.steps = w.steps)
    (hdid : ∀ e, w.Did e → v.Did e) : DeliveryInv id v := by
  have hfind : ∀ e, v.find e = w.find e := fun e => by rw [DeliveryWorld.find, hsteps]; rfl
  have hchange : Change id w v "" := h.same v hkeeps hsteps hdid ""
  refine h.step hcall hcalls hbatch hchange (fun hsome => ?_)
    (fun _ hc => nomatch hc) (fun batch _ hb => ?_) fun _ _ =>
      ⟨fun he => ?_, fun _ hc => nomatch hc⟩
  · rw [hfind] at hsome
    exact (h.order hsome).congr (hfind _)
  · refine ⟨fun e he hsome => ?_, hb.pending, fun herrors hpending hsome => ?_,
      fun hafter herrors => (hb.event hafter herrors).congr (hfind _)⟩
    · rw [hfind] at hsome
      exact (hb.critical e he hsome).congr (hfind e)
    · rw [hfind] at hsome
      exact (hb.trust herrors hpending hsome).congr (hfind _)
  · exact absurd he (by decide)

/-! ## Before the launch -/

variable {deferredDigest : String} {staleLeaseMs : Int} {queueDepthMax : Nat}

theorem not_done_of_started {w : DeliveryWorld C} {e : String} (h : w.Started e) : ¬ w.Done e := by
  obtain ⟨row, hrow, hstate⟩ := h
  rintro ⟨row', hrow', hstate'⟩
  obtain rfl := Option.some.inj (hrow.symm.trans hrow')
  rw [hstate] at hstate'
  cases hstate'

theorem DeliveryInv.openEarly {w v : DeliveryWorld C} (h : DeliveryInv id w) {c : C} {call : Call}
    (hcall : w.calls c = some call) (hearly : call.stage.early = true) {e₀ : String}
    (he₀ : e₀ ∉ lateEffects) (hclosed : e₀ ∉ call.stage.opens) {now : Int} {runs : Bool}
    {life : Lifecycle Unit}
    (hopen : w.life.openStep id staleLeaseMs call.journal e₀ now = some (runs, life))
    {stage : MainStage} (hlife : v.life = life)
    (hcalls : v.calls = Function.update w.calls c (some { call with stage }))
    (hbatch : v.batch = w.batch) (hdid : ∀ e, w.Did e → v.Did e) (hearly' : stage.early = true)
    (hplanned : stage.Planned)
    (hopens : ∀ e, e ≠ e₀ → (e ∈ stage.opens ↔ e ∈ call.stage.opens))
    (hruns : e₀ ∈ stage.opens ↔ runs = true) : DeliveryInv id v := by
  subst hlife
  obtain ⟨hkeeps, ⟨rfl, -, -, row, hrow, hsteps⟩ | ⟨rfl, -, hlife⟩ |
    ⟨rfl, hsucceeded, row, hrow, hsteps⟩⟩ := openStep_spec hopen
  · have hstarted : v.Started e₀ := ⟨row, (find_set hsteps).1, hrow⟩
    refine h.earlyStep hcall hearly he₀ hcalls hbatch
      (.of_set hkeeps hsteps (.inl hrow) hdid fun hs => by rw [hrow] at hs; cases hs)
      fun call' hc => ?_
    obtain rfl := Option.some.inj hc
    exact ⟨rfl, hearly', hplanned, hopens, fun _ _ => not_done_of_started hstarted,
      fun _ _ => hruns.mpr rfl⟩
  · have hsteps : v.steps = w.steps := congrArg (fun life => life.journal.steps) hlife
    refine h.earlyStep hcall hearly he₀ hcalls hbatch (h.same v hkeeps hsteps hdid e₀)
      fun call' hc => ?_
    obtain rfl := Option.some.inj hc
    refine ⟨rfl, hearly', hplanned, hopens, fun _ hmem => absurd (hruns.mp hmem) (by decide),
      fun hcritical hstarted => ?_⟩
    refine absurd ((h.calls c call hcall).started e₀ (List.mem_cons_of_mem _ hcritical) ?_) hclosed
    refine hstarted.congr ?_
    rw [DeliveryWorld.find, DeliveryWorld.find, hsteps]
  · have hdone : v.Done e₀ := ⟨row, (find_set hsteps).1, hrow⟩
    refine h.earlyStep hcall hearly he₀ hcalls hbatch
      (.of_set hkeeps hsteps (.inr (.inl hrow)) hdid fun _ =>
        hdid e₀ (h.shown c call hcall e₀ hsucceeded)) fun call' hc => ?_
    obtain rfl := Option.some.inj hc
    exact ⟨rfl, hearly', hplanned, hopens, fun _ hmem => absurd (hruns.mp hmem) (by decide),
      fun _ hstarted => absurd hdone (not_done_of_started hstarted)⟩

theorem DeliveryInv.closeEarly {w v : DeliveryWorld C} (h : DeliveryInv id w) {c : C} {call : Call}
    (hcall : w.calls c = some call) (hearly : call.stage.early = true) {new : Option Call}
    {e₀ : String} (he₀ : e₀ ∉ lateEffects) {outcome : Outcome} {now : Int}
    (hlife : v.life = w.life.closeStep id e₀ outcome now)
    (hcalls : v.calls = Function.update w.calls c new) (hbatch : v.batch = w.batch)
    (hdid : ∀ e, w.Did e → v.Did e) (hreturned : outcome = .succeeded → v.Did e₀)
    (hnew : ∀ call', new = some call' → call'.journal = call.journal ∧
      call'.stage.early = true ∧ call'.stage.Planned ∧ e₀ ∉ call'.stage.opens ∧
      ∀ e, e ≠ e₀ → (e ∈ call'.stage.opens ↔ e ∈ call.stage.opens)) : DeliveryInv id v := by
  obtain ⟨hkeeps, row, hrow, hsteps⟩ := closeStep_spec h.there e₀ outcome now
  rw [← hlife] at hkeeps hsteps
  have hkind : row.state = .succeeded ∨ row.state = .failed := by
    rw [hrow]
    cases outcome <;> decide
  refine h.earlyStep hcall hearly he₀ hcalls hbatch
    (.of_set hkeeps hsteps (.inr hkind) hdid fun hs => hreturned ?_) fun call' hc => ?_
  · rw [hrow] at hs
    cases outcome <;> first | rfl | cases hs
  · obtain ⟨hjournal, hearly', hplanned, hclosed, hopens⟩ := hnew call' hc
    refine ⟨hjournal, hearly', hplanned, hopens, fun _ hmem => absurd hmem hclosed,
      fun _ ⟨row', hrow', hstate⟩ => ?_⟩
    obtain rfl := Option.some.inj ((find_set hsteps).1.symm.trans hrow')
    rcases hkind with hkind | hkind <;> rw [hkind] at hstate <;> cases hstate

theorem DeliveryInv.stayEarly {w v : DeliveryWorld C} (h : DeliveryInv id w) {c : C} {call : Call}
    (hcall : w.calls c = some call) (hearly : call.stage.early = true) {stage : MainStage}
    (hcalls : v.calls = Function.update w.calls c (some { call with stage }))
    (hbatch : v.batch = w.batch) (hkeeps : Keeps id w.life v.life) (hsteps : v.steps = w.steps)
    (hdid : ∀ e, w.Did e → v.Did e) (hearly' : stage.early = true) (hplanned : stage.Planned)
    (hopens : stage.opens = call.stage.opens) : DeliveryInv id v := by
  have hchange : Change id w v "" := h.same v hkeeps hsteps hdid ""
  refine h.earlyStep hcall hearly (by decide) hcalls hbatch hchange fun call' hc => ?_
  obtain rfl := Option.some.inj hc
  exact ⟨rfl, hearly', hplanned, fun e _ => by rw [hopens], fun he => absurd he (by decide),
    fun he => absurd he (by decide)⟩

theorem note_did {w : DeliveryWorld C} (effectId : String) (outcome : Outcome) {e : String}
    (h : w.Did e) : (w.note effectId outcome).Did e := by
  refine h.imp (fun hmem => ?_) fun hmem => hmem
  unfold DeliveryWorld.note
  dsimp only
  split
  · exact List.mem_append_left _ hmem
  · exact hmem

theorem note_returned {w : DeliveryWorld C} {effectId : String} {outcome : Outcome}
    (h : outcome = .succeeded) : (w.note effectId outcome).Did effectId := by
  subst h
  exact .inl (List.mem_append_right _ (List.mem_singleton.mpr rfl))

/-! ## After the launch -/

theorem MainStage.planned_of_late {stage : MainStage} (h : stage.early = false) :
    stage.Planned := by
  cases stage with
  | going | running | mirroring | gating | gate => cases h
  | late | finishing => trivial

theorem MainStage.not_opens_of_late {stage : MainStage} (h : stage.early = false) {e : String}
    (he : e ∈ criticalEffects) : e ∉ stage.opens := by
  cases stage with
  | going | running | mirroring | gating | gate => cases h
  | late => exact List.not_mem_nil
  | finishing effect effects =>
      intro hmem
      obtain rfl := List.mem_singleton.mp hmem
      cases effect <;> exact absurd he (by decide)

theorem DeliveryInv.lateStep {w v : DeliveryWorld C} (h : DeliveryInv id w) {c : C} {call : Call}
    (hcall : w.calls c = some call) (hlate : call.stage.early = false) {new : Option Call}
    {e₀ : String} (he₀ : e₀ ∈ ["S18", "S19", "S20"])
    (hcalls : v.calls = Function.update w.calls c new)
    (hbatch : v.batch = w.batch) (hchange : Change id w v e₀)
    (horder : (v.find "S20").isSome = true → v.Done "S18")
    (hevent : w.Done "S20" → v.Done "S20")
    (hnew : ∀ call', new = some call' → call'.journal = call.journal ∧
      call'.stage.early = false ∧ Place v call'.journal call'.stage ∧
      (∀ e ∈ requiredEffects, e ∈ call'.stage.opens → ¬ v.Done e) ∧
      (v.Started "S20" → "S20" ∈ call'.stage.opens))
    (hfinal : v.life.inState id .succeeded = true → w.life.inState id .succeeded = true →
      (e₀ ∈ requiredEffects → (v.find e₀).isSome = true → v.Done e₀) ∧
        ∀ call', new = some call' → ∀ e ∈ requiredEffects, e ∉ call'.stage.opens) :
    DeliveryInv id v := by
  have hne : ∀ e ∈ "D16" :: criticalEffects, e ≠ e₀ := by
    rintro e he rfl
    have hall : ∀ e ∈ "D16" :: criticalEffects, e ∉ ["S18", "S19", "S20"] := by decide
    exact hall e he he₀
  refine h.step hcall hcalls hbatch hchange horder (fun call' hc => ?_) (fun batch hb hholds => ?_)
    fun hv hw => ⟨(hfinal hv hw).1, fun call' hc =>
      ⟨(hnew call' hc).2.1, (hfinal hv hw).2 call' hc⟩⟩
  · obtain ⟨hjournal, hlate', hplace, hopened, hstarted⟩ := hnew call' hc
    refine ⟨hjournal, ⟨MainStage.planned_of_late hlate', hplace, hopened, fun e he hstart => ?_⟩,
      fun _ => hlate'⟩
    rcases List.mem_cons.mp he with rfl | hcritical
    · exact hstarted hstart
    · have hfind := hchange.find e (hne e (List.mem_cons_of_mem _ hcritical))
      exact absurd ((h.calls c call hcall).started e he (hstart.congr hfind.symm))
        (MainStage.not_opens_of_late hlate hcritical)
  · have htrust := hchange.find "D16" (hne _ (List.mem_cons_self ..))
    refine ⟨fun e he hsome => ?_, hholds.pending, fun herrors hpending hsome => ?_,
      fun hafter herrors => hevent (hholds.event hafter herrors)⟩
    · have hfind := hchange.find e (hne e (List.mem_cons_of_mem _ he))
      rw [hfind] at hsome
      exact (hholds.critical e he hsome).congr hfind
    · rw [htrust] at hsome
      exact (hholds.trust herrors hpending hsome).congr htrust

theorem DeliveryInv.launch {w : DeliveryWorld C} (h : DeliveryInv id w) {c : C} {call : Call}
    (hcall : w.calls c = some call) (hstage : call.stage = .going [])
    (hregular : RegularMain w call (.going [])) (batch : Batch)
    (hnew : batch.stage.pending = deferredRoster call.skipIndexSync ∧ batch.stage.after = false)
    (hfresh : batch.journal.resumeSteps = none) :
    DeliveryInv id ({ w with batch := w.batch <|> some batch }.goTo c call
      (.late [.mark, .nudge, .event])) := by
  have hheld := h.calls c call hcall
  obtain ⟨hnone, hshown⟩ := hheld.place.early (by rw [hstage]; rfl)
  generalize hv : ({ w with batch := w.batch <|> some batch }.goTo c call
    (.late [.mark, .nudge, .event]) : DeliveryWorld C) = v
  have hcalls : v.calls = Function.update w.calls c
      (some { call with stage := .late [.mark, .nudge, .event] }) := by
    rw [← hv]
    rfl
  have hbatch : v.batch = some batch := by
    rw [← hv]
    change (w.batch <|> some batch) = some batch
    rw [hnone]
    rfl
  have hlife : v.life = w.life := by
    rw [← hv]
    rfl
  have hfind : ∀ e, v.find e = w.find e := fun e => by
    rw [DeliveryWorld.find, DeliveryWorld.steps, hlife]
    rfl
  have hdid : ∀ e, w.Did e → v.Did e := fun e he => by
    rw [← hv]
    exact he
  have hchange : Change id w v "" :=
    h.same v (.of_row (by rw [hlife])) (by rw [DeliveryWorld.steps, hlife]; rfl) hdid ""
  have hcases : ∀ b call', v.calls b = some call' →
      b = c ∧ call' = { call with stage := .late [.mark, .nudge, .event] } := by
    intro b call' hb
    rw [hcalls, Function.update_apply] at hb
    split at hb
    · next heq => exact ⟨heq, (Option.some.inj hb).symm⟩
    · next hne => exact absurd (h.single b c _ _ hb hcall) hne
  have hnotStarted : ∀ e ∈ "S20" :: criticalEffects, ¬ v.Started e := by
    intro e he hstart
    have hmem := hheld.started e he (hstart.congr (hfind e).symm)
    rw [hstage] at hmem
    cases hmem
  refine ⟨hchange.keeps.there h.there, hchange.done h.did, fun b call' hb e he => ?_,
    fun batch' hb e he => ?_, hchange.kinds h.kinds, fun hsome => ?_,
    fun b b' _ _ hb hb' => (hcases b _ hb).1.trans (hcases b' _ hb').1.symm,
    fun b call' hb => ?_, fun batch' hb => ⟨?_, fun b call' hc => ?_⟩, fun hsucceeded => ?_⟩
  · rw [(hcases b call' hb).2] at he
    exact hdid e (h.shown c call hcall e he)
  · obtain rfl := Option.some.inj (hbatch.symm.trans hb)
    obtain ⟨prior, hprior, -⟩ := he
    rw [hfresh] at hprior
    cases hprior
  · rw [hfind] at hsome
    exact (h.order hsome).congr (hfind _)
  · rw [(hcases b call' hb).2]
    exact ⟨trivial, hshown.congr (hfind _), fun e _ hmem => (nomatch hmem),
      fun e he hstart => absurd hstart (hnotStarted e he)⟩
  · obtain rfl := Option.some.inj (hbatch.symm.trans hb)
    refine ⟨fun e he hsome => ?_, fun e he hrequired => ?_, fun _ hpending _ => ?_,
      fun hafter => ?_⟩
    · obtain ⟨row, hrow⟩ := Option.isSome_iff_exists.mp hsome
      refine ⟨row, hrow, ?_⟩
      have hrow' : w.find e = some row := (hfind e).symm.trans hrow
      have hkinds := h.kinds e row hrow'
      cases hstate : row.state with
      | succeeded => rfl
      | notStarted => exact absurd hstate hkinds.1
      | started =>
          exact absurd ⟨row, hrow, hstate⟩ (hnotStarted e (List.mem_cons_of_mem _ he))
      | failed => exact absurd hstate (hregular e he row hrow')
      | indeterminate =>
          have hreplay := hkinds.2 hstate
          revert hreplay
          have hall : ∀ e ∈ criticalEffects, isAutoReplayableAfterStarted e = true := by decide
          rw [hall e he]
          nofun
    · rw [hnew.1] at he
      have hall : ∀ skip, ∀ e ∈ deferredRoster skip, e ∈ requiredEffects → e = "D16" := by decide
      exact hall _ e he hrequired
    · rw [hnew.1] at hpending
      have hall : ∀ skip, "D16" ∈ deferredRoster skip := by decide
      exact absurd (hall _) hpending
    · rw [hnew.2] at hafter
      cases hafter
  · rw [(hcases b call' hc).2]
    rfl
  · rw [hlife] at hsucceeded
    have hearly := ((h.final hsucceeded).2.2 c call hcall).1
    rw [hstage] at hearly
    cases hearly

theorem verdict_run {journal : Journal} {effectId : String} (h : journal.verdict effectId = .run)
    (heffect : effectId ∉ alwaysReevaluateEffects) : ¬ journal.Succeeded effectId := by
  rintro ⟨prior, hprior, hstate⟩
  rw [Journal.verdict, if_neg heffect, hprior] at h
  dsimp only at h
  rw [hstate, if_neg (by decide), if_pos rfl] at h
  cases h

theorem DeliveryInv.change_open {w v : DeliveryWorld C} (h : DeliveryInv id w) {journal : Journal}
    (hshown : ∀ e, journal.Succeeded e → w.Did e) {e₀ : String} {now : Int} {runs : Bool}
    {life : Lifecycle Unit}
    (hopen : w.life.openStep id staleLeaseMs journal e₀ now = some (runs, life))
    (hlife : v.life = life) (hdid : ∀ e, w.Did e → v.Did e) : Change id w v e₀ := by
  subst hlife
  obtain ⟨hkeeps, ⟨rfl, -, -, row, hrow, hsteps⟩ | ⟨rfl, -, hlife⟩ |
    ⟨rfl, hsucceeded, row, hrow, hsteps⟩⟩ := openStep_spec hopen
  · exact .of_set hkeeps hsteps (.inl hrow) hdid fun hs => by rw [hrow] at hs; cases hs
  · exact h.same v hkeeps (congrArg (fun life => life.journal.steps) hlife) hdid e₀
  · exact .of_set hkeeps hsteps (.inr (.inl hrow)) hdid fun _ => hdid e₀ (hshown e₀ hsucceeded)

theorem DeliveryInv.change_close {w v : DeliveryWorld C} (h : DeliveryInv id w) {e₀ : String}
    {outcome : Outcome} {now : Int} (hlife : v.life = w.life.closeStep id e₀ outcome now)
    (hdid : ∀ e, w.Did e → v.Did e) (hreturned : outcome = .succeeded → v.Did e₀) :
    Change id w v e₀ ∧ ¬ v.Started e₀ ∧ (outcome = .succeeded → v.Done e₀) := by
  obtain ⟨hkeeps, row, hrow, hsteps⟩ := closeStep_spec h.there e₀ outcome now
  rw [← hlife] at hkeeps hsteps
  have hself : v.find e₀ = some row := (find_set hsteps).1
  have hkind : row.state = .succeeded ∨ row.state = .failed := by
    rw [hrow]
    cases outcome <;> decide
  refine ⟨.of_set hkeeps hsteps (.inr hkind) hdid fun hs => hreturned ?_,
    fun ⟨row', hrow', hstate⟩ => ?_, fun heq => ⟨row, hself, by rw [hrow, heq]; rfl⟩⟩
  · rw [hrow] at hs
    cases outcome <;> first | rfl | cases hs
  · obtain rfl := Option.some.inj (hself.symm.trans hrow')
    rcases hkind with hkind | hkind <;> rw [hkind] at hstate <;> cases hstate

theorem Place.mono {w v : DeliveryWorld C} {journal : Journal} {stage : MainStage}
    (h : Place w journal stage) (hmark : w.Done "S18" → v.Done "S18")
    (hsome : (v.find "S20").isSome = true → (w.find "S20").isSome = true)
    (hevent : v.Done "S20" → w.Done "S20") (hbatch : stage.early = true → v.batch = w.batch) :
    Place v journal stage := by
  have hshown : Shown w journal → Shown v journal :=
    fun h => ⟨fun hs => h.mark (hsome hs), fun hdone => h.event (hevent hdone)⟩
  unfold Place at h ⊢
  split at h
  · exact hshown h
  · by_contra hne
    have hs := hsome (Option.isSome_iff_ne_none.mpr hne)
    rw [h] at hs
    cases hs
  · exact ⟨hmark h.1, fun hdone => h.2 (hevent hdone)⟩
  · exact ⟨hmark h.1, fun hdone => h.2 (hevent hdone)⟩
  · exact ⟨hmark h.1, fun hdone => h.2 (hevent hdone)⟩
  · exact hmark h
  · trivial
  · cases h
  · cases h
  · next hlate hfinishing =>
      refine ⟨(hbatch ?_).trans h.1, hshown h.2⟩
      cases stage with
      | going | running | mirroring | gating | gate => rfl
      | late effects => exact (hlate effects rfl).elim
      | finishing effect effects => exact (hfinishing effect effects rfl).elim

theorem Place.congr {w v : DeliveryWorld C} {journal : Journal} {stage : MainStage}
    (h : Place w journal stage) (hmark : v.find "S18" = w.find "S18")
    (hevent : v.find "S20" = w.find "S20") (hbatch : stage.early = true → v.batch = w.batch) :
    Place v journal stage :=
  h.mono (fun hdone => hdone.congr hmark) (fun hsome => hevent ▸ hsome)
    (fun hdone => hdone.congr hevent.symm) hbatch

theorem DeliveryWorld.find_eq {w v : DeliveryWorld C} (h : v.steps = w.steps) (e : String) :
    v.find e = w.find e := by
  rw [DeliveryWorld.find, h]
  rfl

theorem DeliveryInv.openLate {w v : DeliveryWorld C} (h : DeliveryInv id w) {c : C} {call : Call}
    (hcall : w.calls c = some call) {effect : LateEffect} {effects : List LateEffect}
    (hstage : call.stage = .late (effect :: effects))
    (hregular : RegularMain w call (.late (effect :: effects))) {now : Int} {runs : Bool}
    {life : Lifecycle Unit}
    (hopen : w.life.openStep id staleLeaseMs call.journal effect.effectId now = some (runs, life))
    {stage : MainStage}
    (hnext : stage = if runs then .finishing effect effects else .late effects)
    (hlife : v.life = life)
    (hcalls : v.calls = Function.update w.calls c (some { call with stage }))
    (hbatch : v.batch = w.batch) (hdid : ∀ e, w.Did e → v.Did e) : DeliveryInv id v := by
  have hheld := h.calls c call hcall
  have hplace := hheld.place
  rw [hstage] at hplace
  have hchange := h.change_open (h.shown c call hcall) hopen hlife hdid
  have hunstarted : ¬ w.Started "S20" := by
    intro hstarted
    have hmem := hheld.started "S20" (List.mem_cons_self ..) hstarted
    rw [hstage] at hmem
    cases hmem
  have hlate : call.stage.early = false := by rw [hstage]; rfl
  subst hlife
  match effect, effects, hplace with
  | .mark, [.nudge, .event], hplace =>
      have hplace : Shown w call.journal := hplace
      have hevent : v.find "S20" = w.find "S20" := hchange.find _ (by decide)
      obtain ⟨-, ⟨rfl, hverdict, hnot, row, hrow, hsteps⟩ | ⟨-, hverdict, -⟩ |
        ⟨rfl, -, row, hrow, hsteps⟩⟩ := openStep_spec hopen
      · have hnone : w.find "S20" = none := by
          by_contra hsome
          exact verdict_run hverdict (by decide) (hplace.mark (Option.isSome_iff_ne_none.mpr hsome))
        have hnone' := hevent.trans hnone
        refine h.lateStep hcall hlate (by decide) hcalls hbatch hchange (fun hsome => ?_)
          (fun hdone => hdone.congr hevent) (fun call' hc => ?_) fun hv _ => ?_
        · rw [hnone'] at hsome
          cases hsome
        · obtain rfl := Option.some.inj hc
          subst hnext
          refine ⟨rfl, rfl, hnone', fun e _ hmem => ?_, fun hstarted => ?_⟩
          · obtain rfl := List.mem_singleton.mp hmem
            exact not_done_of_started ⟨row, (find_set hsteps).1, hrow⟩
          · exact absurd (hstarted.congr hevent.symm) hunstarted
        · rw [hnot] at hv
          cases hv
      · exact absurd hverdict (hregular (by decide))
      · have hdone : v.Done "S18" := ⟨row, (find_set hsteps).1, hrow⟩
        refine h.lateStep hcall hlate (by decide) hcalls hbatch hchange (fun _ => hdone)
          (fun hdone => hdone.congr hevent) (fun call' hc => ?_)
          fun _ _ => ⟨fun _ _ => hdone, fun call' hc => ?_⟩
        · obtain rfl := Option.some.inj hc
          subst hnext
          exact ⟨rfl, rfl, ⟨hdone, (hplace.congr hevent).event⟩, fun _ _ hmem => (nomatch hmem),
            fun hstarted => absurd (hstarted.congr hevent.symm) hunstarted⟩
        · obtain rfl := Option.some.inj hc
          subst hnext
          exact fun _ _ hmem => nomatch hmem
  | .nudge, [.event], hplace =>
      have hplace : w.Done "S18" ∧ (w.Done "S20" → call.journal.Succeeded "S20") := hplace
      have hevent : v.find "S20" = w.find "S20" := hchange.find _ (by decide)
      have hmark : v.Done "S18" := hplace.1.congr (hchange.find _ (by decide))
      have hshown : v.Done "S20" → call.journal.Succeeded "S20" :=
        fun hdone => hplace.2 (hdone.congr hevent.symm)
      have hopens : ∀ e ∈ requiredEffects, e ∉ stage.opens := by
        rw [hnext]
        cases runs with
        | false => exact fun _ _ hmem => nomatch hmem
        | true =>
            intro e he hmem
            obtain rfl := List.mem_singleton.mp hmem
            exact absurd he (by decide)
      refine h.lateStep hcall hlate (by decide) hcalls hbatch hchange (fun _ => hmark)
        (fun hdone => hdone.congr hevent) (fun call' hc => ?_)
        fun _ _ => ⟨fun he => absurd he (by decide), fun call' hc => ?_⟩
      · obtain rfl := Option.some.inj hc
        refine ⟨rfl, ?_, ?_, fun e he hmem => absurd hmem (hopens e he),
          fun hstarted => absurd (hstarted.congr hevent.symm) hunstarted⟩
        · rw [hnext]
          cases runs <;> rfl
        · subst hnext
          cases runs <;> exact ⟨hmark, hshown⟩
      · obtain rfl := Option.some.inj hc
        exact hopens
  | .event, [], hplace =>
      have hplace : w.Done "S18" ∧ (w.Done "S20" → call.journal.Succeeded "S20") := hplace
      have hmark : v.Done "S18" := hplace.1.congr (hchange.find _ (by decide))
      obtain ⟨-, ⟨rfl, hverdict, hnot, row, hrow, hsteps⟩ | ⟨-, hverdict, -⟩ |
        ⟨rfl, -, row, hrow, hsteps⟩⟩ := openStep_spec hopen
      · refine h.lateStep hcall hlate (by decide) hcalls hbatch hchange (fun _ => hmark)
          (fun hdone => absurd (hplace.2 hdone) (verdict_run hverdict (by decide)))
          (fun call' hc => ?_) fun hv _ => ?_
        · obtain rfl := Option.some.inj hc
          subst hnext
          refine ⟨rfl, rfl, hmark, fun e _ hmem => ?_, fun _ => List.mem_singleton.mpr rfl⟩
          obtain rfl := List.mem_singleton.mp hmem
          exact not_done_of_started ⟨row, (find_set hsteps).1, hrow⟩
        · rw [hnot] at hv
          cases hv
      · exact absurd hverdict (hregular (by decide))
      · have hdone : v.Done "S20" := ⟨row, (find_set hsteps).1, hrow⟩
        refine h.lateStep hcall hlate (by decide) hcalls hbatch hchange (fun _ => hmark)
          (fun _ => hdone) (fun call' hc => ?_) fun _ _ => ⟨fun _ _ => hdone, fun call' hc => ?_⟩
        · obtain rfl := Option.some.inj hc
          subst hnext
          exact ⟨rfl, rfl, trivial, fun _ _ hmem => (nomatch hmem),
            fun hstarted => absurd hdone (not_done_of_started hstarted)⟩
        · obtain rfl := Option.some.inj hc
          subst hnext
          exact fun _ _ hmem => nomatch hmem

theorem DeliveryInv.closeLate {w v : DeliveryWorld C} (h : DeliveryInv id w) {c : C} {call : Call}
    (hcall : w.calls c = some call) {effect : LateEffect} {effects : List LateEffect}
    (hstage : call.stage = .finishing effect effects) {outcome : Outcome} {now : Int}
    {new : Option Call}
    (hnew : ∀ call', new = some call' →
      outcome = .succeeded ∧ call' = { call with stage := .late effects })
    (hlife : v.life = w.life.closeStep id effect.effectId outcome now)
    (hcalls : v.calls = Function.update w.calls c new)
    (hbatch : v.batch = w.batch) (hdid : ∀ e, w.Did e → v.Did e)
    (hreturned : outcome = .succeeded → v.Did effect.effectId) : DeliveryInv id v := by
  have hheld := h.calls c call hcall
  have hplace := hheld.place
  rw [hstage] at hplace
  obtain ⟨hchange, hclosed, hdone⟩ := h.change_close hlife hdid hreturned
  have hlate : call.stage.early = false := by rw [hstage]; rfl
  have hopens : call.stage.opens = [effect.effectId] := by rw [hstage]; rfl
  have hunstarted : effect.effectId ≠ "S20" → ¬ w.Started "S20" := by
    intro hne hstarted
    have hmem := hheld.started "S20" (List.mem_cons_self ..) hstarted
    rw [hopens] at hmem
    exact hne (List.mem_singleton.mp hmem).symm
  have hunfinished : effect.effectId ∈ requiredEffects →
      w.life.inState id .succeeded = true → False := by
    intro he hsucceeded
    refine ((h.final hsucceeded).2.2 c call hcall).2 _ he ?_
    rw [hopens]
    exact List.mem_singleton.mpr rfl
  have hnone : ∀ call', new = some call' → ∀ e ∈ requiredEffects, e ∉ call'.stage.opens := by
    intro call' hc e _ hmem
    rw [(hnew call' hc).2] at hmem
    cases hmem
  match effect, effects, hplace with
  | .mark, [.nudge, .event], hplace =>
      have hplace : w.find "S20" = none := hplace
      have hevent : v.find "S20" = w.find "S20" := hchange.find _ (by decide)
      refine h.lateStep hcall hlate (by decide) hcalls hbatch hchange (fun hsome => ?_)
        (fun hdone => hdone.congr hevent) (fun call' hc => ?_)
        fun _ hw => (hunfinished (by decide) hw).elim
      · rw [hevent, hplace] at hsome
        cases hsome
      · have hopened := hnone call' hc
        obtain ⟨houtcome, rfl⟩ := hnew call' hc
        refine ⟨rfl, rfl, ⟨hdone houtcome, fun hdone' => ?_⟩, fun e he hmem =>
          absurd hmem (hopened e he),
          fun hstarted => absurd (hstarted.congr hevent.symm) (hunstarted (by decide))⟩
        have hsome := hdone'.isSome
        rw [hevent, hplace] at hsome
        cases hsome
  | .nudge, [.event], hplace =>
      have hplace : w.Done "S18" ∧ (w.Done "S20" → call.journal.Succeeded "S20") := hplace
      have hevent : v.find "S20" = w.find "S20" := hchange.find _ (by decide)
      have hmark : v.Done "S18" := hplace.1.congr (hchange.find _ (by decide))
      refine h.lateStep hcall hlate (by decide) hcalls hbatch hchange (fun _ => hmark)
        (fun hdone => hdone.congr hevent) (fun call' hc => ?_)
        fun _ _ => ⟨fun he => absurd he (by decide), hnone⟩
      have hopened := hnone call' hc
      obtain ⟨houtcome, rfl⟩ := hnew call' hc
      exact ⟨rfl, rfl, ⟨hmark, fun hdone' => hplace.2 (hdone'.congr hevent.symm)⟩,
        fun e he hmem => absurd hmem (hopened e he),
        fun hstarted => absurd (hstarted.congr hevent.symm) (hunstarted (by decide))⟩
  | .event, [], hplace =>
      have hmark : v.Done "S18" := (show w.Done "S18" from hplace).congr
        (hchange.find _ (by decide))
      have hundone : ¬ w.Done "S20" := by
        refine hheld.opened "S20" (by decide) ?_
        rw [hopens]
        exact List.mem_singleton.mpr rfl
      refine h.lateStep hcall hlate (by decide) hcalls hbatch hchange (fun _ => hmark)
        (fun hdone => absurd hdone hundone) (fun call' hc => ?_)
        fun _ hw => (hunfinished (by decide) hw).elim
      have hopened := hnone call' hc
      obtain ⟨houtcome, rfl⟩ := hnew call' hc
      exact ⟨rfl, rfl, trivial, fun e he hmem => absurd hmem (hopened e he),
        fun hstarted => absurd hstarted hclosed⟩

end

end TrwMcp.Delivery
