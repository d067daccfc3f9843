import TrwMcp.Delivery.Steps
import TrwMcp.Delivery.ClaimRuns

/-!
# No effect is entered twice

While the operation is there, an effect whose row would let it run has been entered no more often
than an operator confirmed it was not applied; every step keeps this, unless a journal enters an
effect on rows that are no longer the ones it was shown.
-/

namespace TrwMcp.Delivery

open Lib

section

variable {J : Type} {id effectId : String}

/-- A row that says the effect is not, or no longer, applied. -/
def Fresh : Option StepRecord → Prop
  | none => True
  | some step => step.state = .notStarted ∨
      (step.state = .failed ∧ step.findingCode = confirmedNotApplied)

/-- What a run keeps of one effect. -/
structure Bounded (id effectId : String) (w : JournalWorld J) : Prop where
  total : w.entered.count effectId ≤ 1 + w.notApplied.count effectId
  fresh : (w.store.operation id).isSome = true → Fresh (Dict.lookup w.steps effectId) →
    w.entered.count effectId ≤ w.notApplied.count effectId
  unclaimed : w.claims = 0 → w.entered.count effectId = 0 ∧ w.store.operation id = none

/-- A world no call has been made in. -/
def JournalWorld.fresh : JournalWorld J := { handles := fun _ => none }

theorem Bounded.start : Bounded id effectId (JournalWorld.fresh : JournalWorld J) :=
  ⟨by simp [JournalWorld.fresh], by simp [JournalWorld.fresh],
    fun _ => ⟨rfl, by simp [JournalWorld.fresh, Store.operation]⟩⟩

theorem Bounded.keep {w w' : JournalWorld J} (h : Bounded id effectId w)
    (hentered : w'.entered = w.entered) (hnot : w'.notApplied = w.notApplied)
    (hclaims : w'.claims = w.claims)
    (hop : (w'.store.operation id).isSome = true → (w.store.operation id).isSome = true)
    (hfresh : (w'.store.operation id).isSome = true → Fresh (Dict.lookup w'.steps effectId) →
      Fresh (Dict.lookup w.steps effectId)) :
    Bounded id effectId w' where
  total := by
    rw [hentered, hnot]
    exact h.total
  fresh hop' hrow := by
    rw [hentered, hnot]
    exact h.fresh (hop hop') (hfresh hop' hrow)
  unclaimed hzero := by
    obtain ⟨hcount, hnone⟩ := h.unclaimed (hclaims ▸ hzero)
    refine ⟨hentered ▸ hcount, ?_⟩
    cases hop' : w'.store.operation id with
    | none => rfl
    | some op =>
        have := hop (by rw [hop']; rfl)
        rw [hnone] at this
        cases this

/-! ## The operation's row -/

theorem operation_isSome_iff {s : Store} :
    (s.operation id).isSome = true ↔ ∃ op ∈ s.operations, op.operationId = id := by
  rw [Store.operation, List.find?_isSome]
  simp

theorem updateOp_isSome {w : JournalWorld J} {change : Operation → Operation}
    (h : ((w.updateOp id change).store.operation id).isSome = true) :
    (w.store.operation id).isSome = true := by
  rw [operation_isSome_iff] at h ⊢
  obtain ⟨op', hop', hid⟩ := h
  obtain ⟨op, hop, rfl⟩ := List.mem_map.mp hop'
  refine ⟨op, hop, ?_⟩
  by_contra hne
  rw [if_neg hne] at hid
  exact hne hid

theorem Bounded.keepOp {w w' : JournalWorld J} (h : Bounded id effectId w)
    {change : Operation → Operation} (hentered : w'.entered = w.entered)
    (hnot : w'.notApplied = w.notApplied) (hclaims : w'.claims = w.claims)
    (hstore : w'.store = (w.updateOp id change).store)
    (hfresh : Fresh (Dict.lookup w'.steps effectId) → Fresh (Dict.lookup w.steps effectId)) :
    Bounded id effectId w' :=
  h.keep hentered hnot hclaims (fun hop => updateOp_isSome (hstore ▸ hop)) fun _ => hfresh

theorem fresh_set {steps : Dict String StepRecord} {other : String} {row : StepRecord}
    (hrow : ¬Fresh (some row))
    (h : Fresh (Dict.lookup (Dict.set steps other row) effectId)) :
    Fresh (Dict.lookup steps effectId) := by
  rw [Dict.lookup_set] at h
  split at h
  · exact absurd h hrow
  · exact h

theorem fresh_classified {steps : Dict String StepRecord}
    (h : Fresh (Dict.lookup (Dict.mapValues classifyRestart steps) effectId)) :
    Fresh (Dict.lookup steps effectId) := by
  rw [Dict.lookup_mapValues] at h
  cases hrow : Dict.lookup steps effectId with
  | none => trivial
  | some row =>
      rw [hrow, Option.map_some, classifyRestart] at h
      split at h
      · rcases h with h | ⟨h, -⟩ <;> cases h
      · exact h

/-! ## Steps of a journal -/

theorem Bounded.finalizeStep {w w' : JournalWorld J} (h : Bounded id effectId w) {other : String}
    {state : StepState} {findingCode : String} {now : Int}
    (hrow : ∀ attempt, ¬Fresh (some ⟨state, attempt, findingCode⟩))
    (hw' : w.finalizeStep id other state findingCode now = some w') : Bounded id effectId w' := by
  unfold JournalWorld.finalizeStep at hw'
  split at hw'
  · cases hw'
  · obtain rfl := Option.some.inj hw'
    exact h.keepOp rfl rfl rfl rfl fun hfresh => fresh_set (hrow _) hfresh

theorem beginStep_some {w begun : JournalWorld J} {other : String} {pid now staleLeaseMs : Int}
    (h : w.beginStep id other pid now staleLeaseMs = some begun) :
    (w.store.operation id).isSome = true ∧ begun.entered = w.entered ∧
      begun.notApplied = w.notApplied ∧ begun.claims = w.claims ∧
      ((begun.store.operation id).isSome = true → (w.store.operation id).isSome = true) ∧
      ∃ attempt, begun.steps = Dict.set w.steps other ⟨.started, attempt, ""⟩ := by
  unfold JournalWorld.beginStep at h
  split at h
  · cases h
  · split at h
    · cases h
    · next op hop =>
        split at h
        · cases h
        · split at h
          · cases h
          · obtain rfl := Option.some.inj h
            refine ⟨by rw [hop]; rfl, rfl, rfl, rfl, fun hsome => updateOp_isSome hsome, _, rfl⟩

theorem outcome_not_fresh (outcome : Outcome) (attempt : Nat) :
    ¬Fresh (some ⟨outcome.state, attempt, outcome.findingCode⟩) := by
  cases outcome with
  | succeeded => rintro (h | ⟨h, -⟩) <;> cases h
  | raised =>
      rintro (h | ⟨-, h⟩)
      · cases h
      · exact absurd h (show "" ≠ confirmedNotApplied by decide)
  | refused =>
      rintro (h | ⟨-, h⟩)
      · cases h
      · exact absurd h (show "override_refused" ≠ confirmedNotApplied by decide)

theorem started_not_fresh (attempt : Nat) : ¬Fresh (some ⟨.started, attempt, ""⟩) := by
  rintro (h | ⟨h, -⟩) <;> cases h

/-- The condition on one step. A journal runs an effect only while the effect's row is the one it
was shown, and not one of a step under way or in doubt; and an identifier that was claimed is not
claimed again when its rows are gone. -/
def RegularDeed (id : String) (w : JournalWorld J) : JournalDeed J → Prop
  | .enter j effectId _ _ _ => effectId ∉ alwaysReevaluateEffects → ∀ journal,
      w.journal j = some journal → journal.verdict effectId = .run →
        Dict.lookup w.steps effectId = journal.resumeSteps.bind (Dict.lookup · effectId) ∧
          ∀ step, Dict.lookup w.steps effectId = some step →
            step.state ≠ .started ∧ step.state ≠ .indeterminate
  | .claim _ _ _ _ _ =>
      w.store.operation id = none → w.store.tombstone id = none → w.claims = 0
  | _ => True

theorem fresh_of_verdict {w : JournalWorld J} {journal : Journal}
    (halways : effectId ∉ alwaysReevaluateEffects) (hverdict : journal.verdict effectId = .run)
    (hshown : Dict.lookup w.steps effectId = journal.resumeSteps.bind (Dict.lookup · effectId))
    (hsettled : ∀ step, Dict.lookup w.steps effectId = some step →
      step.state ≠ .started ∧ step.state ≠ .indeterminate) :
    Fresh (Dict.lookup w.steps effectId) := by
  unfold Journal.verdict at hverdict
  rw [if_neg halways, ← hshown] at hverdict
  cases hrow : Dict.lookup w.steps effectId with
  | none => trivial
  | some step =>
      obtain ⟨hstarted, hindeterminate⟩ := hsettled step hrow
      simp only [hrow] at hverdict
      cases hstate : step.state with
      | notStarted => exact .inl hstate
      | started => exact absurd hstate hstarted
      | succeeded => simp [hstate] at hverdict
      | failed =>
          refine .inr ⟨hstate, ?_⟩
          by_contra hne
          simp [hstate, hne] at hverdict
      | indeterminate => exact absurd hstate hindeterminate

/-! ## Recovery -/

theorem Bounded.reconcile {digests : Digests} {w : JournalWorld J} (h : Bounded id effectId w)
    {auth : Authority} {other : String} {applied : Bool} {now : Int} :
    Bounded id effectId (w.reconcileEffect id digests auth other applied now) := by
  unfold JournalWorld.reconcileEffect
  split
  · split
    · exact h
    · split
      · exact h
      · cases applied with
        | true =>
            refine h.keepOp rfl rfl rfl rfl fun hfresh => fresh_set ?_ hfresh
            rintro (hstate | ⟨hstate, -⟩) <;> cases hstate
        | false =>
            refine ⟨?_, fun hop hfresh => ?_, fun hzero => ?_⟩
            · refine h.total.trans ?_
              simp [List.count_append]
            · by_cases hsame : other = effectId
              · have hcount : (w.notApplied ++ [other]).count effectId =
                    w.notApplied.count effectId + 1 := by simp [List.count_append, hsame]
                refine h.total.trans ?_
                change _ ≤ (w.notApplied ++ [other]).count effectId
                rw [hcount]
                omega
              · change Fresh (Dict.lookup (Dict.set w.steps other _) effectId) at hfresh
                rw [Dict.lookup_set_ne _ (Ne.symm hsame)] at hfresh
                refine (h.fresh (updateOp_isSome hop) hfresh).trans ?_
                simp [List.count_append]
            · obtain ⟨hcount, hnone⟩ := h.unclaimed hzero
              refine ⟨hcount, ?_⟩
              next op step hop hstep _ _ =>
                rw [hnone] at hop
                cases hop
  · exact h

theorem Bounded.applyCrashRecovery {w : JournalWorld J} (h : Bounded id effectId w) (now : Int) :
    Bounded id effectId (w.applyCrashRecovery id now) :=
  h.keepOp rfl rfl rfl rfl fresh_classified

theorem Bounded.resume {digests : Digests} {w : JournalWorld J} (h : Bounded id effectId w)
    {auth : Authority} {newPid now staleLeaseMs : Int} {alive : Int → Bool} :
    Bounded id effectId (w.resume id digests auth newPid now staleLeaseMs alive) := by
  unfold JournalWorld.resume
  split
  · exact h
  · simp only
    split
    · exact h
    · next op _ _ =>
        have hclassified : Bounded id effectId
            (if op.leaseValid now alive = true then w else w.applyCrashRecovery id now) := by
          split
          · exact h
          · exact h.applyCrashRecovery now
        generalize (if op.leaseValid now alive = true then w else w.applyCrashRecovery id now) =
          classified at hclassified ⊢
        split
        · exact hclassified
        · exact hclassified.keepOp rfl rfl rfl rfl fun hfresh => hfresh

theorem Bounded.maintenance {w : JournalWorld J} (h : Bounded id effectId w) (now : Int) :
    Bounded id effectId (w.maintenance id now) := by
  have hop : ((runMaintenance now w.store).operation id).isSome = true →
      (w.store.operation id).isSome = true := by
    rw [operation_isSome_iff, operation_isSome_iff]
    rintro ⟨op, hop, hid⟩
    exact ⟨op, (List.mem_filter.mp hop).1, hid⟩
  unfold JournalWorld.maintenance
  simp only
  split
  · exact h.keep rfl rfl rfl hop fun _ hfresh => hfresh
  · next hnone => exact h.keep rfl rfl rfl hop fun hsome _ => absurd hsome hnone

/-! ## Runs -/

variable [DecidableEq J]

theorem Bounded.setHandle {w : JournalWorld J} (h : Bounded id effectId w) (j : J)
    (handle : Option Handle) : Bounded id effectId (w.setHandle j handle) :=
  h.keep rfl rfl rfl (fun hop => hop) fun _ hfresh => hfresh

theorem Bounded.enter {w : JournalWorld J} (h : Bounded id effectId w)
    (halways : effectId ∉ alwaysReevaluateEffects) {j : J} {other : String}
    {now staleLeaseMs : Int} {enters : Bool}
    (hregular : RegularDeed id w (.enter j other now staleLeaseMs enters)) :
    Bounded id effectId (w.enter id j other now staleLeaseMs enters) := by
  unfold JournalWorld.enter
  cases hjournal : w.journal j with
  | none => exact h
  | some journal =>
      simp only
      cases hverdict : journal.verdict other with
      | skip => exact h
      | record findingCode =>
          simp only
          cases hfinal : w.finalizeStep id other .succeeded findingCode now with
          | none => exact h
          | some w' =>
              refine h.finalizeStep (fun attempt => ?_) hfinal
              rintro (hstate | ⟨hstate, -⟩) <;> cases hstate
      | run =>
          simp only
          cases hbegin : w.beginStep id other journal.pid now staleLeaseMs with
          | none => exact h
          | some begun =>
              obtain ⟨hop, hentered, hnot, hclaims, hsome, attempt, hsteps⟩ := beginStep_some hbegin
              have hbegun : Bounded id effectId begun := by
                refine h.keep hentered hnot hclaims hsome fun _ hfresh => ?_
                rw [hsteps] at hfresh
                exact fresh_set (started_not_fresh attempt) hfresh
              cases enters with
              | false => exact hbegun.setHandle j none
              | true =>
                  simp only [if_true]
                  by_cases hsame : other = effectId
                  · subst hsame
                    obtain ⟨hshown, hsettled⟩ := hregular halways journal hjournal hverdict
                    have hle := h.fresh hop (fresh_of_verdict halways hverdict hshown hsettled)
                    have hcount : (w.entered ++ [other]).count other = w.entered.count other + 1 := by
                      simp [List.count_append]
                    refine ⟨?_, fun _ hfresh => ?_, fun hzero => ?_⟩
                    · change (w.entered ++ [other]).count other ≤ 1 + begun.notApplied.count other
                      rw [hcount, hnot]
                      omega
                    · change Fresh (Dict.lookup begun.steps other) at hfresh
                      rw [hsteps, Dict.lookup_set_self] at hfresh
                      exact absurd hfresh (started_not_fresh attempt)
                    · have hnone := (h.unclaimed (hclaims ▸ hzero)).2
                      rw [hnone] at hop
                      cases hop
                  · have hcount : (w.entered ++ [other]).count effectId =
                        begun.entered.count effectId := by
                      rw [hentered]
                      simp [List.count_append, hsame]
                    refine ⟨?_, fun hop' hfresh => ?_, fun hzero => ?_⟩
                    · change (w.entered ++ [other]).count effectId ≤ _
                      rw [hcount]
                      exact hbegun.total
                    · change (w.entered ++ [other]).count effectId ≤ _
                      rw [hcount]
                      exact hbegun.fresh hop' hfresh
                    · change (w.entered ++ [other]).count effectId = 0 ∧ _
                      rw [hcount]
                      exact hbegun.unclaimed hzero

theorem Bounded.claim {digests : Digests} {w : JournalWorld J} (h : Bounded id effectId w) {j : J}
    {t : Ticket} {salt : String} {staleLeaseMs : Int} {full : Bool}
    (hregular : RegularDeed id w (.claim j t salt staleLeaseMs full)) :
    Bounded id effectId (w.exec id digests (.claim j t salt staleLeaseMs full)) := by
  unfold JournalWorld.exec
  simp only
  split
  · next hclaim =>
      rcases @commitClaim_cases digests w.store t salt staleLeaseMs full with
        ⟨hstatus, hstore⟩ | ⟨hop, hstone, hstatus, hstore⟩
      · have hkeep : ∀ w' : JournalWorld J, w'.entered = w.entered →
            w'.notApplied = w.notApplied → w'.claims = w.claims → w'.steps = w.steps →
            w'.store = (commitClaim digests w.store t salt staleLeaseMs full).2 →
              Bounded id effectId w' := by
          intro w' hentered hnot hclaims hsteps hstore'
          refine h.keep hentered hnot hclaims (fun hop => ?_) fun _ hfresh => hsteps ▸ hfresh
          rw [hstore', hstore] at hop
          exact hop
        split
        · next hclaimed => exact absurd hclaimed hstatus
        · exact hkeep _ rfl rfl rfl rfl rfl
        · exact hkeep _ rfl rfl rfl rfl rfl
      · simp only [hstatus]
        rw [hclaim.1] at hop hstone
        obtain ⟨hcount, -⟩ := h.unclaimed (hregular hop hstone)
        refine ⟨?_, fun _ _ => ?_, fun hzero => absurd hzero (Nat.succ_ne_zero _)⟩
        · change w.entered.count effectId ≤ _
          omega
        · change w.entered.count effectId ≤ _
          omega
  · exact h

theorem Bounded.exec {digests : Digests} {w : JournalWorld J} (h : Bounded id effectId w)
    (halways : effectId ∉ alwaysReevaluateEffects) {deed : JournalDeed J}
    (hregular : RegularDeed id w deed) : Bounded id effectId (w.exec id digests deed) := by
  cases deed with
  | claim j t salt staleLeaseMs full => exact h.claim hregular
  | readGrant j now =>
      simp only [JournalWorld.exec]
      split
      · split
        · exact h.setHandle _ _
        · exact h.setHandle _ _
      · exact h
  | openDeferred j parent now =>
      simp only [JournalWorld.exec]
      split
      · exact h.setHandle _ _
      · exact h
  | enter j other now staleLeaseMs enters => exact h.enter halways hregular
  | finish j other outcome now =>
      simp only [JournalWorld.exec]
      split
      · split
        · refine Bounded.setHandle ?_ _ _
          cases hfinal : w.finalizeStep id other outcome.state outcome.findingCode now with
          | none => exact h
          | some w' => exact h.finalizeStep (outcome_not_fresh outcome) hfinal
        · exact h
      · exact h
  | markState j state now =>
      simp only [JournalWorld.exec]
      split
      · exact h.keepOp rfl rfl rfl rfl fun hfresh => hfresh
      · exact h
  | resume auth newPid now staleLeaseMs alive => exact h.resume
  | takeover auth newOwner newPid now staleLeaseMs alive =>
      simp only [JournalWorld.exec, JournalWorld.takeover]
      repeat' split
      · exact h
      · exact h
      · exact h
      · exact h.keepOp rfl rfl rfl rfl fun hfresh => hfresh
  | reconcile auth other applied now => exact h.reconcile
  | cancel auth now =>
      simp only [JournalWorld.exec, JournalWorld.requestCancel]
      split
      · exact h
      · split
        · exact h
        · exact h.keepOp rfl rfl rfl rfl fun hfresh => hfresh
  | maintenance now => exact h.maintenance now
  | stop j => exact h.setHandle j none

/-- One step that meets the condition. -/
def RegularExec (id : String) (digests : Digests) (w : JournalWorld J) (deed : JournalDeed J)
    (w' : JournalWorld J) : Prop :=
  w' = w.exec id digests deed ∧ RegularDeed id w deed

/-- In a run of regular steps an effect is entered at most once, and once more for each decision
that it was not applied. -/
theorem effect_entered_once {digests : Digests} {w : JournalWorld J} {deeds : List (JournalDeed J)}
    (h : Run (RegularExec id digests) JournalWorld.fresh deeds w) (effectId : String)
    (halways : effectId ∉ alwaysReevaluateEffects) :
    w.entered.count effectId ≤ 1 + w.notApplied.count effectId := by
  refine (h.invariant (I := Bounded id effectId) Bounded.start ?_).total
  rintro v deed v' hbounded ⟨rfl, hregular⟩
  exact hbounded.exec halways hregular

end

/-! ### Resuming twice -/

def staleLease : Int := 15 * 60 * 1000

/-- Two stale leases after the crash. -/
def sampleLater : Int := sampleNow + 2 * staleLease

def resumedTicket : Ticket :=
  { sampleTicket sampleId with
      args := { sampleClaim sampleId with pid := 7 }
      effectiveNow := sampleLater }

def sampleAuthority (revision : Nat) : Authority := ⟨"0123456789abcdef", revision, "crashed", ""⟩

def claimDeed : JournalDeed Nat := .claim 0 (sampleTicket sampleId) "salt" staleLease false

/-- A delivery that crashes in an effect. -/
def crashedDeeds : List (JournalDeed Nat) :=
  [claimDeed, .enter 0 "S08" sampleNow staleLease true, .stop 0]

/-- The first `resume` leaves the effect in doubt and is refused; the second one is granted. -/
def resumedDeeds : List (JournalDeed Nat) :=
  [.resume (sampleAuthority 2) 7 sampleLater staleLease fun _ => false,
    .resume (sampleAuthority 3) 7 sampleLater staleLease fun _ => false,
    .claim 1 resumedTicket "salt" staleLease false, .readGrant 1 sampleLater,
    .enter 1 "S08" sampleLater staleLease true]

def runDeeds (deeds : List (JournalDeed Nat)) : JournalWorld Nat :=
  deeds.foldl (JournalWorld.exec sampleId plainDigests) JournalWorld.fresh

theorem runDeeds_run (deeds : List (JournalDeed Nat)) :
    Run (fun w deed w' => w' = w.exec sampleId plainDigests deed) JournalWorld.fresh deeds
      (runDeeds deeds) := by
  induction deeds using List.reverseRecOn with
  | nil => exact .nil
  | append_singleton deeds deed ih =>
      rw [runDeeds, List.foldl_append]
      exact ih.snoc rfl

theorem effect_entered_once_sample :
    (runDeeds crashedDeeds).entered.count "S08" ≤
      1 + (runDeeds crashedDeeds).notApplied.count "S08" := by
  have hsteps : (runDeeds [claimDeed]).steps = [] := by decide +kernel
  have hshown : ((runDeeds [claimDeed]).journal 0).map (·.resumeSteps) = some none := by
    decide +kernel
  have hrun : Run (RegularExec sampleId plainDigests) JournalWorld.fresh crashedDeeds
      (runDeeds crashedDeeds) := by
    refine ((Run.nil.snoc ⟨rfl, fun _ _ => rfl⟩).snoc ⟨rfl, ?_⟩).snoc ⟨rfl, trivial⟩
    intro _ journal hjournal _
    change (runDeeds [claimDeed]).journal 0 = some journal at hjournal
    change Dict.lookup (runDeeds [claimDeed]).steps "S08" = _ ∧ ∀ step,
      Dict.lookup (runDeeds [claimDeed]).steps "S08" = some step → _
    rw [hjournal, Option.map_some] at hshown
    rw [hsteps, Option.some.inj hshown]
    exact ⟨rfl, fun step hstep => by cases hstep⟩
  exact effect_entered_once hrun "S08" (by decide)

/-- No operator confirmed anything, and the effect is entered a second time. -/
theorem effect_entered_twice :
    ∃ deeds : List (JournalDeed Nat), ∃ w, Run (fun w deed w' =>
        w' = w.exec sampleId plainDigests deed) JournalWorld.fresh deeds w ∧
      w.entered = ["S08", "S08"] ∧ w.notApplied = [] ∧ "S08" ∉ alwaysReevaluateEffects :=
  ⟨crashedDeeds ++ resumedDeeds, _, runDeeds_run _, by decide +kernel, by decide +kernel,
    by decide⟩

end TrwMcp.Delivery
