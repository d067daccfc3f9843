import TrwMcp.Journal.Sweeps

/-!
# The replay budget, and the counts of a sweep

* `sweep_counts` — every count a sweep returns is one of the records it found pending.
* `replay_budget` — no record fails more often than the budget allows, where every replay is entered
  with the count that stands in the file.

The count that stands in the file is then the number of failures, or more; the holder of the claim
is the only one to write it.
-/

set_option linter.unusedSectionVars false

namespace TrwMcp.Journal.Sweeps

open Lib

section

variable {D I : Type} [DecidableEq D] [DecidableEq I] {maxAttempts : Int} {w w' : Backlog D I} {d : D}
  {deed : Deed I}

/-! ## The counts -/

/-- The records of a sweep that are in no count yet. -/
def Stage.left : Stage I → Nat
  | .idle | .listing _ _ => 0
  | .looping todo => todo.length
  | .claimed _ _ todo => todo.length + 1
  | .replaying _ _ todo | .moving _ _ todo | .booking _ _ todo => todo.length
  | .releasing _ todo => todo.length

/-- The records of a sweep that were attempted and are not disposed of. -/
def Stage.undisposed : Stage I → Nat
  | .replaying _ _ _ | .moving _ _ _ | .booking _ _ _ => 1
  | _ => 0

structure Balanced (sweep : Sweep I) : Prop where
  disposed : sweep.tally.recovered + sweep.tally.deadLettered + sweep.tally.retained +
    sweep.stage.undisposed = sweep.tally.attempted
  counted : sweep.tally.attempted + sweep.tally.contended + sweep.stage.left = sweep.pending

/-- Each pending record is in exactly one of the five counts. -/
def DrainResult.Whole (result : DrainResult) : Prop :=
  result.recovered + result.deadLettered + result.retained + result.contended + result.deferred =
    result.pending

theorem Balanced.result {sweep : Sweep I} (h : Balanced sweep) {todo : List (I × Pending)}
    (hstage : sweep.stage = .looping todo) : sweep.result.Whole := by
  have hdisposed := h.disposed
  have hcounted := h.counted
  simp only [hstage, Stage.undisposed, Stage.left] at hdisposed hcounted
  simp only [DrainResult.Whole, Sweep.result]
  omega

theorem balanced_idle : Balanced ({} : Sweep I) := ⟨rfl, rfl⟩

theorem balanced_disposed {sweep : Sweep I} (h : Balanced sweep) {i : I} {record : Pending}
    {todo : List (I × Pending)} (hstage : sweep.stage = .replaying i record todo)
    (disposition : Disposition) :
    Balanced { sweep with
      stage := disposed i record todo disposition
      tally := sweep.tally.disposed disposition } := by
  have hdisposed := h.disposed
  have hcounted := h.counted
  simp only [hstage, Stage.undisposed, Stage.left] at hdisposed hcounted
  cases disposition with
  | recovered =>
      constructor
      · simp only [Tally.disposed, disposed, Stage.undisposed]
        omega
      · exact hcounted
  | deadLettered reason => exact ⟨hdisposed, hcounted⟩
  | retained reason =>
      by_cases hrate : reason = rateLimited
      · simp only [Tally.disposed, disposed, if_pos hrate]
        constructor
        · simp only [Stage.undisposed]
          omega
        · exact hcounted
      · simp only [Tally.disposed, disposed, if_neg hrate]
        exact ⟨hdisposed, hcounted⟩

structure Counted (w : Backlog D I) : Prop where
  sweeps : ∀ d, Balanced (w.sweeps d)
  results : ∀ result ∈ w.results, result.Whole

theorem Counted.put (h : Counted w) {sweep : Sweep I} (hsweep : Balanced sweep)
    (hsweeps : w'.sweeps = Function.update w.sweeps d sweep) (hresults : w'.results = w.results) :
    Counted w' where
  sweeps e := by
    rw [hsweeps]
    by_cases he : e = d
    · rw [he, Function.update_self]
      exact hsweep
    · rw [Function.update_of_ne he]
      exact h.sweeps e
  results := hresults ▸ h.results

theorem Counted.finish (h : Counted w) {todo : List (I × Pending)}
    (hstage : (w.sweeps d).stage = .looping todo) : Counted (w.finish d) where
  sweeps :=
    have hput : Counted (w.put d {}) := h.put balanced_idle rfl rfl
    hput.sweeps
  results result hmem := by
    rcases List.mem_append.mp hmem with hmem | hmem
    · exact h.results result hmem
    · rw [List.mem_singleton.mp hmem]
      exact (h.sweeps d).result hstage

theorem Counted.act (h : Counted w) (hact : act maxAttempts w d deed = some w') : Counted w' := by
  have hdisposed := (h.sweeps d).disposed
  have hcounted := (h.sweeps d).counted
  cases deed with
  | start names limit =>
      simp only [Sweeps.act] at hact
      split at hact
      · obtain rfl := Option.some.inj hact
        exact h.put ⟨rfl, rfl⟩ rfl rfl
      · cases hact
  | read readable =>
      simp only [Sweeps.act] at hact
      split at hact
      · next i names read hstage =>
          rw [hstage] at hdisposed hcounted
          split at hact
          · obtain rfl := Option.some.inj hact
            exact h.put ⟨hdisposed, hcounted⟩ rfl rfl
          · obtain rfl := Option.some.inj hact
            exact h.put ⟨hdisposed, hcounted⟩ rfl rfl
      · cases hact
  | listed =>
      simp only [Sweeps.act] at hact
      split at hact
      · split at hact
        · obtain rfl := Option.some.inj hact
          exact h.put balanced_idle rfl rfl
        · obtain rfl := Option.some.inj hact
          refine h.put ⟨rfl, ?_⟩ rfl rfl
          simp [Stage.left]
      · cases hact
  | next expired granted =>
      simp only [Sweeps.act] at hact
      split at hact
      · next hstage =>
          obtain rfl := Option.some.inj hact
          exact h.finish hstage
      · next i record todo hstage =>
          split at hact
          · obtain rfl := Option.some.inj hact
            exact h.finish hstage
          · rw [hstage] at hdisposed hcounted
            simp only [Stage.undisposed, Stage.left, List.length_cons] at hdisposed hcounted
            split at hact
            · obtain rfl := Option.some.inj hact
              exact h.put ⟨hdisposed, by simp only [Stage.left]; omega⟩ rfl rfl
            · obtain rfl := Option.some.inj hact
              exact h.put ⟨hdisposed, by simp only [Stage.left]; omega⟩ rfl rfl
      · cases hact
  | check =>
      simp only [Sweeps.act] at hact
      split at hact
      · next i record todo hstage =>
          rw [hstage] at hdisposed hcounted
          simp only [Stage.undisposed, Stage.left] at hdisposed hcounted
          split at hact
          · obtain rfl := Option.some.inj hact
            refine h.put ⟨?_, ?_⟩ rfl rfl
            · simp only [Stage.undisposed]
              omega
            · simp only [Stage.left]
              omega
          · obtain rfl := Option.some.inj hact
            refine h.put ⟨?_, ?_⟩ rfl rfl
            · simp only [Stage.undisposed]
              omega
            · simp only [Stage.left]
              omega
      · cases hact
  | replayed out consumes =>
      simp only [Sweeps.act] at hact
      split at hact
      · next i record todo hstage =>
          obtain rfl := Option.some.inj hact
          exact h.put (balanced_disposed (h.sweeps d) hstage _) rfl rfl
      · cases hact
  | move moved =>
      simp only [Sweeps.act] at hact
      split at hact
      · next i record todo hstage =>
          rw [hstage] at hdisposed hcounted
          simp only [Stage.undisposed, Stage.left] at hdisposed hcounted
          split at hact
          · obtain rfl := Option.some.inj hact
            refine h.put ⟨?_, hcounted⟩ rfl rfl
            simp only [Stage.undisposed]
            omega
          · obtain rfl := Option.some.inj hact
            exact h.put ⟨hdisposed, hcounted⟩ rfl rfl
      · cases hact
  | book written =>
      simp only [Sweeps.act] at hact
      split at hact
      · next i record todo hstage =>
          rw [hstage] at hdisposed hcounted
          simp only [Stage.undisposed, Stage.left] at hdisposed hcounted
          obtain rfl := Option.some.inj hact
          refine h.put ⟨?_, hcounted⟩ rfl rfl
          simp only [Stage.undisposed]
          omega
      · cases hact
  | release =>
      simp only [Sweeps.act] at hact
      split at hact
      · next i todo hstage =>
          rw [hstage] at hdisposed hcounted
          obtain rfl := Option.some.inj hact
          exact h.put ⟨hdisposed, hcounted⟩ rfl rfl
      · cases hact

theorem sweep_counts {dir : I → Option Pending} {deeds : List (D × Deed I)}
    (hrun : Run (Step maxAttempts) (Backlog.start dir) deeds w) :
    ∀ result ∈ w.results, result.Whole := by
  have hstart : Counted (Backlog.start dir : Backlog D I) :=
    ⟨fun _ => balanced_idle, fun _ hmem => absurd hmem List.not_mem_nil⟩
  exact (hrun.invariant hstart fun _ _ _ h hstep => h.act hstep).results

/-! ## The budget -/

/-- The record whose claim a sweep holds. -/
def Stage.held : Stage I → Option I
  | .claimed i _ _ | .replaying i _ _ | .moving i _ _ | .booking i _ _ | .releasing i _ => some i
  | _ => none

/-- The record whose failed replay a sweep has not booked yet. -/
def Stage.settling : Stage I → Option I
  | .moving i _ _ | .booking i _ _ => some i
  | _ => none

/-- The condition: a replay is entered with the count that stands in the file. -/
def entersFresh (w : Backlog D I) (d : D) : Deed I → Bool
  | .check =>
      match (w.sweeps d).stage with
      | .claimed i record _ => (w.dir i).all fun stored => decide (record = stored)
      | _ => true
  | _ => true

/-- The writes of `record_attempt` and `dead_letter` succeed. -/
def Deed.writes : Deed I → Bool
  | .move moved => moved
  | .book written => written
  | _ => true

/-- What holds of the stage of a drain: it has the claim, and a replay or a booking under way has
the record as it stands in the file. -/
structure Stage.Good (n : Nat) (w : Backlog D I) (d : D) (stage : Stage I) : Prop where
  held : ∀ i, stage.held = some i → w.claims i = some d
  entered : ∀ i record todo, stage = .replaying i record todo → w.dir i = some record
  booked : ∀ i record todo, stage = .booking i record todo → w.dir i = some record ∧
    w.failures i ≤ recordAttempts record + 1 ∧ recordAttempts record + 1 < n

/-- The count in the file is that of the failures, or more, and within the budget. -/
def Within (n : Nat) (w : Backlog D I) (i : I) : Prop :=
  ∀ record, w.dir i = some record → w.failures i = 0 ∨
    (w.failures i ≤ recordAttempts record ∧ recordAttempts record < n)

structure Bounded (n : Nat) (w : Backlog D I) : Prop where
  good : ∀ d, (w.sweeps d).stage.Good n w d
  budget : ∀ i, w.failures i ≤ n
  within : ∀ i, (∀ d, (w.sweeps d).stage.settling ≠ some i) → Within n w i

variable {n : Nat} {i : I} {sweep : Sweep I}

theorem Stage.held_of_settling {stage : Stage I} (h : stage.settling = some i) :
    stage.held = some i := by
  cases stage <;> simp_all [Stage.settling, Stage.held]

theorem Bounded.put (h : Bounded n w) (hsweeps : w'.sweeps = Function.update w.sweeps d sweep)
    (hdir : w'.dir = w.dir) (hclaims : w'.claims = w.claims) (hfailures : w'.failures = w.failures)
    (hgood : sweep.stage.Good n w d)
    (hsettling : (w.sweeps d).stage.settling = none ∨
      (w.sweeps d).stage.settling = sweep.stage.settling) : Bounded n w' := by
  have hsame : ∀ {e : D} {stage : Stage I}, stage.Good n w e → stage.Good n w' e := by
    intro e stage hg
    exact
      { held := by simpa only [hclaims] using hg.held
        entered := by simpa only [hdir] using hg.entered
        booked := by simpa only [hdir, hfailures] using hg.booked }
  refine ⟨fun e => ?_, by simpa only [hfailures] using h.budget, fun i hi => ?_⟩
  · rw [hsweeps]
    by_cases he : e = d
    · rw [he, Function.update_self]
      exact hsame hgood
    · rw [Function.update_of_ne he]
      exact hsame (h.good e)
  · have hwithin := h.within i fun e he => ?_
    · simpa only [Within, hdir, hfailures] using hwithin
    · have hstage := hi e
      rw [hsweeps] at hstage
      by_cases hed : e = d
      · subst hed
        rw [Function.update_self] at hstage
        rcases hsettling with hnone | hnew
        · rw [hnone] at he
          cases he
        · exact hstage (hnew ▸ he)
      · rw [Function.update_of_ne hed] at hstage
        exact hstage he

theorem Bounded.settle (h : Bounded n w) (hsweeps : w'.sweeps = Function.update w.sweeps d sweep)
    (hclaim : ∀ e, w.claims i = some e → e = d)
    (hown : ∀ j, (w.sweeps d).stage.settling = some j → j = i)
    (hdir : ∀ j, j ≠ i → w'.dir j = w.dir j) (hclaims : ∀ j, j ≠ i → w'.claims j = w.claims j)
    (hfailures : ∀ j, j ≠ i → w'.failures j = w.failures j)
    (hgood : sweep.stage.Good n w' d) (hbudget : w'.failures i ≤ n)
    (hwithin : sweep.stage.settling ≠ some i → Within n w' i) : Bounded n w' := by
  -- no other drain is about the record, since it would hold the claim
  have hother : ∀ e, e ≠ d → ∀ j, (w.sweeps e).stage.held = some j → j ≠ i := by
    rintro e he j hheld rfl
    exact he (hclaim e ((h.good e).held j hheld))
  refine ⟨fun e => ?_, fun j => ?_, fun j hj => ?_⟩
  · rw [hsweeps]
    by_cases he : e = d
    · rw [he, Function.update_self]
      exact hgood
    · rw [Function.update_of_ne he]
      refine ⟨fun j hheld => ?_, fun j record todo hstage => ?_, fun j record todo hstage => ?_⟩
      · rw [hclaims j (hother e he j hheld)]
        exact (h.good e).held j hheld
      · rw [hdir j (hother e he j (by rw [hstage]; rfl))]
        exact (h.good e).entered j record todo hstage
      · have hne := hother e he j (by rw [hstage]; rfl)
        rw [hdir j hne, hfailures j hne]
        exact (h.good e).booked j record todo hstage
  · by_cases hji : j = i
    · rw [hji]
      exact hbudget
    · rw [hfailures j hji]
      exact h.budget j
  · by_cases hji : j = i
    · subst hji
      refine hwithin fun hnew => hj d ?_
      rw [hsweeps, Function.update_self]
      exact hnew
    · have hold := h.within j fun e he => ?_
      · simpa only [Within, hdir j hji, hfailures j hji] using hold
      · by_cases hed : e = d
        · subst hed
          exact hji (hown j he)
        · have hstage := hj e
          rw [hsweeps, Function.update_of_ne hed] at hstage
          exact hstage he

theorem Bounded.unsettled (h : Bounded n w) (hclaim : ∀ e, w.claims i = some e → e = d)
    (hd : (w.sweeps d).stage.settling ≠ some i) : Within n w i := by
  refine h.within i fun e he => ?_
  have hheld := (h.good e).held i (Stage.held_of_settling he)
  rw [hclaim e hheld] at he
  exact hd he

theorem classify_ordinary {out : ReplayEnd} (hout : isOrdinary out = true) (hn : 0 < n)
    (attempt : Nat) :
    classifyReplay false out attempt n =
      if n ≤ attempt then .deadLettered ("retry_budget_exhausted:" ++ toString attempt)
      else .retained "" := by
  cases out with
  | raised typeName text deterministic =>
      cases deterministic with
      | true => cases hout
      | false => simp [classifyReplay, hn]
  | returned status =>
      obtain ⟨hstatus, hrate⟩ := of_decide_eq_true hout
      simp [classifyReplay, hn, hstatus, hrate]

theorem classify_other {out : ReplayEnd} (hout : isOrdinary out = false) (attempt : Nat)
    (record : Pending) (todo : List (I × Pending)) :
    disposed i record todo (classifyReplay false out attempt maxAttempts) = .moving i record todo ∨
      disposed i record todo (classifyReplay false out attempt maxAttempts) =
        .releasing i todo := by
  cases out with
  | raised typeName text deterministic =>
      cases deterministic with
      | true => exact .inl rfl
      | false => cases hout
  | returned status =>
      by_cases hstatus : status ∈ deterministicStatuses
      · left
        simp [classifyReplay, hstatus, disposed]
      · by_cases hrate : status = rateLimited
        · right
          subst hrate
          simp [classifyReplay, hstatus, disposed]
        · simp [isOrdinary, hstatus, hrate] at hout

theorem Stage.Good.releasing {todo : List (I × Pending)} (hclaim : w.claims i = some d) :
    (Stage.releasing i todo).Good n w d :=
  ⟨by rintro _ ⟨⟩; exact hclaim, nofun, nofun⟩

theorem Stage.Good.moving {record : Pending} {todo : List (I × Pending)}
    (hclaim : w.claims i = some d) : (Stage.moving i record todo).Good n w d :=
  ⟨by rintro _ ⟨⟩; exact hclaim, nofun, nofun⟩

theorem Stage.Good.free {stage : Stage I} (h : stage.held = none) : stage.Good n w d := by
  refine ⟨fun i hheld => ?_, fun i record todo hstage => ?_, fun i record todo hstage => ?_⟩
  · rw [h] at hheld
    cases hheld
  · rw [hstage] at h
    cases h
  · rw [hstage] at h
    cases h

theorem Bounded.replayed (h : Bounded n w) (hn : 0 < n) {out : ReplayEnd} {consumes : Bool}
    (hact : Sweeps.act n w d (.replayed out consumes) = some w') : Bounded n w' := by
  simp only [Sweeps.act] at hact
  split at hact
  · next i record todo hstage =>
      obtain rfl := Option.some.inj hact
      have hheld : w.claims i = some d := (h.good d).held i (by rw [hstage]; rfl)
      have hdir : w.dir i = some record := (h.good d).entered i record todo hstage
      have hclaim : ∀ e, w.claims i = some e → e = d := by
        intro e he
        rw [hheld] at he
        exact (Option.some.inj he).symm
      have hold : (w.sweeps d).stage.settling = none := by rw [hstage]; rfl
      have hown : ∀ j, (w.sweeps d).stage.settling = some j → j = i := by
        intro j hj
        rw [hold] at hj
        cases hj
      have hwithin : Within n w i := h.unsettled hclaim (by rw [hold]; nofun)
      cases consumes with
      | true =>
          refine h.settle (i := i) rfl hclaim hown ?_ (fun _ _ => rfl) ?_ ?_ ?_ ?_
          · exact fun j hj => Function.update_of_ne hj _ _
          · simp
          · simp only [if_true, Function.update_self, Option.isNone_none, classifyReplay, disposed]
            exact .releasing hheld
          · simpa using h.budget i
          · intro _ stored hstored
            simp at hstored
      | false =>
          by_cases hout : isOrdinary out = true
          · -- the failure counts, and is booked unless the budget is spent
            have hfailed : w.failures i + 1 ≤ recordAttempts record + 1 ∧
                w.failures i + 1 ≤ n := by
              rcases hwithin record hdir with hzero | ⟨hle, hlt⟩
              · omega
              · omega
            refine h.settle (i := i) rfl hclaim hown (fun _ _ => rfl) (fun _ _ => rfl) ?_ ?_ ?_ ?_
            · intro j hj
              simp [hdir, hout, Function.update_of_ne hj]
            · simp only [Bool.false_eq_true, if_false, hdir, Option.isNone_some,
                classify_ordinary hout hn]
              by_cases hspent : n ≤ recordAttempts record + 1
              · rw [if_pos hspent]
                exact .moving hheld
              · rw [if_neg hspent]
                refine ⟨by rintro _ ⟨⟩; exact hheld, nofun, ?_⟩
                rintro _ _ _ ⟨⟩
                refine ⟨hdir, ?_, by omega⟩
                simpa [hout] using hfailed.1
            · simpa [hdir, hout] using hfailed.2
            · intro hsettling
              exfalso
              simp only [Bool.false_eq_true, if_false, hdir, Option.isNone_some,
                classify_ordinary hout hn] at hsettling
              split at hsettling
              · exact hsettling rfl
              · exact hsettling rfl
          · have hout : isOrdinary out = false := by simpa using hout
            refine h.settle (i := i) rfl hclaim hown (fun _ _ => rfl) (fun _ _ => rfl) ?_ ?_ ?_ ?_
            · simp [hout]
            · simp only [Bool.false_eq_true, if_false, hdir, Option.isNone_some]
              rcases @classify_other I _ n i out hout (recordAttempts record + 1) record
                todo with hmoving | hreleasing
              · rw [hmoving]
                exact .moving hheld
              · rw [hreleasing]
                exact .releasing hheld
            · simpa [hout] using h.budget i
            · intro _
              simpa [Within, hout] using hwithin
  · cases hact

theorem Bounded.act (h : Bounded n w) (hn : 0 < n) (hfresh : entersFresh w d deed = true)
    (hwrites : deed.writes = true) (hact : act n w d deed = some w') : Bounded n w' := by
  cases deed with
  | start names limit =>
      simp only [Sweeps.act] at hact
      split at hact
      · next hstage =>
          obtain rfl := Option.some.inj hact
          exact h.put rfl rfl rfl rfl (.free rfl) (.inl (by rw [hstage]; rfl))
      · cases hact
  | read readable =>
      simp only [Sweeps.act] at hact
      split at hact
      · next hstage =>
          split at hact
          · obtain rfl := Option.some.inj hact
            exact h.put rfl rfl rfl rfl (.free rfl) (.inl (by rw [hstage]; rfl))
          · obtain rfl := Option.some.inj hact
            exact h.put rfl rfl rfl rfl (.free rfl) (.inl (by rw [hstage]; rfl))
      · cases hact
  | listed =>
      simp only [Sweeps.act] at hact
      split at hact
      · next hstage =>
          split at hact
          · obtain rfl := Option.some.inj hact
            exact h.put rfl rfl rfl rfl (.free rfl) (.inl (by rw [hstage]; rfl))
          · obtain rfl := Option.some.inj hact
            exact h.put rfl rfl rfl rfl (.free rfl) (.inl (by rw [hstage]; rfl))
      · cases hact
  | next expired granted =>
      simp only [Sweeps.act] at hact
      split at hact
      · next hstage =>
          obtain rfl := Option.some.inj hact
          exact h.put rfl rfl rfl rfl (.free rfl) (.inl (by rw [hstage]; rfl))
      · next i record todo hstage =>
          have hold : (w.sweeps d).stage.settling = none := by rw [hstage]; rfl
          split at hact
          · obtain rfl := Option.some.inj hact
            exact h.put rfl rfl rfl rfl (.free rfl) (.inl hold)
          · split at hact
            · next hgranted =>
                obtain rfl := Option.some.inj hact
                have hclaim : ∀ e, w.claims i = some e → e = d := by
                  intro e he
                  rw [hgranted.2] at he
                  cases he
                refine h.settle (i := i) rfl hclaim ?_ (fun _ _ => rfl) ?_ (fun _ _ => rfl) ?_
                  (h.budget i) fun _ => h.unsettled hclaim (by rw [hold]; nofun)
                · intro j hj
                  rw [hold] at hj
                  cases hj
                · exact fun j hj => Function.update_of_ne hj _ _
                · refine ⟨?_, nofun, nofun⟩
                  rintro _ ⟨⟩
                  exact Function.update_self ..
            · obtain rfl := Option.some.inj hact
              exact h.put rfl rfl rfl rfl (.free rfl) (.inl hold)
      · cases hact
  | check =>
      simp only [Sweeps.act] at hact
      split at hact
      · next i record todo hstage =>
          have hheld : w.claims i = some d := (h.good d).held i (by rw [hstage]; rfl)
          have hold : (w.sweeps d).stage.settling = none := by rw [hstage]; rfl
          split at hact
          · next hsome =>
              obtain rfl := Option.some.inj hact
              refine h.put rfl rfl rfl rfl ⟨?_, ?_, nofun⟩ (.inl hold)
              · rintro _ ⟨⟩
                exact hheld
              · rintro _ _ _ ⟨⟩
                obtain ⟨stored, hstored⟩ := Option.isSome_iff_exists.mp hsome
                simp only [entersFresh, hstage, hstored, Option.all_some, decide_eq_true_eq] at hfresh
                rw [hfresh]
                exact hstored
          · obtain rfl := Option.some.inj hact
            exact h.put rfl rfl rfl rfl (.releasing hheld) (.inl hold)
      · cases hact
  | replayed out consumes => exact h.replayed hn hact
  | move moved =>
      simp only [Sweeps.act] at hact
      split at hact
      · next i record todo hstage =>
          have hheld : w.claims i = some d := (h.good d).held i (by rw [hstage]; rfl)
          rw [if_pos (show moved = true from hwrites)] at hact
          obtain rfl := Option.some.inj hact
          refine h.settle (i := i) rfl ?_ ?_ ?_ (fun _ _ => rfl) (fun _ _ => rfl)
            (.releasing hheld) (h.budget i) fun _ stored hstored => ?_
          · intro e he
            rw [hheld] at he
            exact (Option.some.inj he).symm
          · rintro j hj
            rw [hstage] at hj
            exact (Option.some.inj hj).symm
          · exact fun j hj => Function.update_of_ne hj _ _
          · simp at hstored
      · cases hact
  | book written =>
      simp only [Sweeps.act] at hact
      split at hact
      · next i record todo hstage =>
          have hheld : w.claims i = some d := (h.good d).held i (by rw [hstage]; rfl)
          obtain ⟨-, hfailed, hbudget⟩ := (h.good d).booked i record todo hstage
          rw [if_pos (show written = true from hwrites)] at hact
          obtain rfl := Option.some.inj hact
          refine h.settle (i := i) rfl ?_ ?_ ?_ (fun _ _ => rfl) (fun _ _ => rfl)
            (.releasing hheld) (h.budget i) fun _ stored hstored => ?_
          · intro e he
            rw [hheld] at he
            exact (Option.some.inj he).symm
          · rintro j hj
            rw [hstage] at hj
            exact (Option.some.inj hj).symm
          · exact fun j hj => Function.update_of_ne hj _ _
          · obtain rfl : (⟨some ((recordAttempts record : Int) + 1)⟩ : Pending) = stored := by
              simpa using hstored
            right
            simp only [recordAttempts, Option.getD_some] at hfailed hbudget ⊢
            change w.failures i ≤ _ ∧ _
            omega
      · cases hact
  | release =>
      simp only [Sweeps.act] at hact
      split at hact
      · next i todo hstage =>
          have hheld : w.claims i = some d := (h.good d).held i (by rw [hstage]; rfl)
          have hold : (w.sweeps d).stage.settling = none := by rw [hstage]; rfl
          have hclaim : ∀ e, w.claims i = some e → e = d := by
            intro e he
            rw [hheld] at he
            exact (Option.some.inj he).symm
          obtain rfl := Option.some.inj hact
          refine h.settle (i := i) rfl hclaim ?_ (fun _ _ => rfl) ?_ (fun _ _ => rfl) (.free rfl)
            (h.budget i) fun _ => h.unsettled hclaim (by rw [hold]; nofun)
          · intro j hj
            rw [hold] at hj
            cases hj
          · exact fun j hj => Function.update_of_ne hj _ _
      · cases hact

theorem act_dir (hact : act maxAttempts w d deed = some w') :
    w'.dir = w.dir ∨ (∃ i, w'.dir = Function.update w.dir i none) ∨
      ∃ i record todo, (w.sweeps d).stage = .booking i record todo ∧
        w'.dir = Function.update w.dir i (some ⟨some ((recordAttempts record : Int) + 1)⟩) := by
  cases deed with
  | start names limit =>
      simp only [Sweeps.act] at hact
      split at hact
      · obtain rfl := Option.some.inj hact
        exact .inl rfl
      · cases hact
  | read readable =>
      simp only [Sweeps.act] at hact
      split at hact
      · split at hact
        · obtain rfl := Option.some.inj hact
          exact .inl rfl
        · obtain rfl := Option.some.inj hact
          exact .inl rfl
      · cases hact
  | listed =>
      simp only [Sweeps.act] at hact
      split at hact
      · split at hact
        · obtain rfl := Option.some.inj hact
          exact .inl rfl
        · obtain rfl := Option.some.inj hact
          exact .inl rfl
      · cases hact
  | next expired granted =>
      simp only [Sweeps.act] at hact
      split at hact
      · obtain rfl := Option.some.inj hact
        exact .inl rfl
      · split at hact
        · obtain rfl := Option.some.inj hact
          exact .inl rfl
        · split at hact
          · obtain rfl := Option.some.inj hact
            exact .inl rfl
          · obtain rfl := Option.some.inj hact
            exact .inl rfl
      · cases hact
  | check =>
      simp only [Sweeps.act] at hact
      split at hact
      · split at hact
        · obtain rfl := Option.some.inj hact
          exact .inl rfl
        · obtain rfl := Option.some.inj hact
          exact .inl rfl
      · cases hact
  | replayed out consumes =>
      simp only [Sweeps.act] at hact
      split at hact
      · next i record todo hstage =>
          obtain rfl := Option.some.inj hact
          cases consumes with
          | true => exact .inr (.inl ⟨i, rfl⟩)
          | false => exact .inl rfl
      · cases hact
  | move moved =>
      simp only [Sweeps.act] at hact
      split at hact
      · next i record todo hstage =>
          split at hact
          · obtain rfl := Option.some.inj hact
            exact .inr (.inl ⟨i, rfl⟩)
          · obtain rfl := Option.some.inj hact
            exact .inl rfl
      · cases hact
  | book written =>
      simp only [Sweeps.act] at hact
      split at hact
      · next i record todo hstage =>
          obtain rfl := Option.some.inj hact
          cases written with
          | true => exact .inr (.inr ⟨i, record, todo, hstage, rfl⟩)
          | false => exact .inl rfl
      · cases hact
  | release =>
      simp only [Sweeps.act] at hact
      split at hact
      · obtain rfl := Option.some.inj hact
        exact .inl rfl
      · cases hact

/-- No count that stays in the directory falls. -/
def CountsGrow (w w' : Backlog D I) : Prop :=
  ∀ i record record', w.dir i = some record → w'.dir i = some record' →
    recordAttempts record ≤ recordAttempts record'

theorem Bounded.grows (h : Bounded n w) (hact : Sweeps.act maxAttempts w d deed = some w') :
    CountsGrow w w' := by
  intro j stored stored' hstored hstored'
  rcases act_dir hact with hdir | ⟨i, hdir⟩ | ⟨i, record, todo, hstage, hdir⟩
  · rw [hdir, hstored] at hstored'
    rw [Option.some.inj hstored']
  · rw [hdir] at hstored'
    by_cases hji : j = i
    · subst hji
      simp at hstored'
    · rw [Function.update_of_ne hji, hstored] at hstored'
      rw [Option.some.inj hstored']
  · rw [hdir] at hstored'
    by_cases hji : j = i
    · subst hji
      have hrecord := ((h.good d).booked j record todo hstage).1
      rw [hstored] at hrecord
      obtain rfl := Option.some.inj hrecord
      rw [Function.update_self] at hstored'
      obtain rfl := Option.some.inj hstored'
      simp only [recordAttempts, Option.getD_some]
      omega
    · rw [Function.update_of_ne hji, hstored] at hstored'
      rw [Option.some.inj hstored']

/-- A step that meets the condition, with the bookkeeping writes that succeed. -/
def FreshStep (n : Nat) (w : Backlog D I) (x : D × Deed I) (w' : Backlog D I) : Prop :=
  Step n w x w' ∧ x.2.writes = true ∧ entersFresh w x.1 x.2 = true

theorem run_bounded (hn : 0 < n) {dir : I → Option Pending} {deeds : List (D × Deed I)}
    (hrun : Run (FreshStep n) (Backlog.start dir) deeds w) : Bounded n w := by
  refine hrun.invariant ⟨fun _ => .free rfl, fun _ => Nat.zero_le _, ?_⟩ ?_
  · exact fun i _ record _ => .inl rfl
  · exact fun _ _ _ h hstep => h.act hn hstep.2.2 hstep.2.1 hstep.1

/-- Where every replay is entered with the count that stands in the file, no record fails in the
ordinary way more than `n` times and no count falls; the counts of a sweep are whole in any run. -/
theorem replay_budget (hn : 0 < n) {dir : I → Option Pending} {deeds : List (D × Deed I)} :
    (Run (FreshStep n) (Backlog.start dir) deeds w →
      (∀ i, w.failures i ≤ n) ∧ ∀ before x after, deeds = before ++ x :: after →
        ∃ s s', Run (FreshStep n) (Backlog.start dir) before s ∧ FreshStep n s x s' ∧
          Run (FreshStep n) s' after w ∧ CountsGrow s s') ∧
      (Run (Step n) (Backlog.start dir) deeds w → ∀ result ∈ w.results, result.Whole) := by
  refine ⟨fun hrun => ⟨(run_bounded hn hrun).budget, ?_⟩, sweep_counts⟩
  rintro before x after rfl
  obtain ⟨s, s', hbefore, hstep, hafter⟩ := hrun.split
  exact ⟨s, s', hbefore, hstep, hafter, (run_bounded hn hbefore).grows hstep.1⟩

end

/-! ### Two drains and one record -/

abbrev SampleBacklog := Backlog Bool Unit

/-- One record, which was never attempted. -/
def sampleBacklog : SampleBacklog := Backlog.start fun _ => some ⟨none⟩

def freshAct (n : Nat) (w : SampleBacklog) (x : Bool × Deed Unit) : Option SampleBacklog :=
  if x.2.writes ∧ entersFresh w x.1 x.2 then act n w x.1 x.2 else none

def sampleRead (d : Bool) : List (Bool × Deed Unit) :=
  [(d, .start [()] 1), (d, .read true), (d, .listed)]

/-- A replay that fails, up to its disposition. -/
def sampleFailure (d : Bool) : List (Bool × Deed Unit) :=
  [(d, .next false true), (d, .check), (d, .replayed (.raised "StorageError" "" false) false)]

def sampleBook (d : Bool) : List (Bool × Deed Unit) :=
  [(d, .book true), (d, .release), (d, .next false true)]

/-- A sweep whose one replay fails and is booked. -/
def sampleSweep (d : Bool) : List (Bool × Deed Unit) :=
  sampleRead d ++ sampleFailure d ++ sampleBook d

theorem run_of_freshAct {n : Nat} {w : SampleBacklog} {deeds : List (Bool × Deed Unit)}
    (h : deeds.foldlM (freshAct n) sampleBacklog = some w) :
    Run (FreshStep n) sampleBacklog deeds w := by
  refine (Run.of_foldlM h).mono fun s x s' hstep => ?_
  unfold freshAct at hstep
  split at hstep
  · next hfresh => exact ⟨hstep, hfresh⟩
  · cases hstep

theorem replay_budget_sample : ∃ w : SampleBacklog, w.failures () = 2 ∧ ∀ i, w.failures i ≤ 2 := by
  have hsome : ((sampleSweep false ++ sampleRead true ++ sampleFailure true).foldlM (freshAct 2)
      sampleBacklog).map (·.failures ()) = some 2 := by
    decide +kernel
  obtain ⟨w, hw, hfailures⟩ := Option.map_eq_some_iff.mp hsome
  exact ⟨w, hfailures, ((replay_budget (by decide)).1 (run_of_freshAct hw)).1⟩

theorem run_of_act {n : Nat} {w : SampleBacklog} {deeds : List (Bool × Deed Unit)}
    (h : deeds.foldlM (fun w x => act n w x.1 x.2) sampleBacklog = some w) :
    Run (Step n) sampleBacklog deeds w :=
  (Run.of_foldlM h).mono fun _ _ _ hstep => hstep

/-- Two sweeps read the record before either books its failure. -/
def staleSweeps : List (Bool × Deed Unit) :=
  sampleRead false ++ sampleRead true ++ sampleFailure true ++ sampleBook true

/-- A third failure within a budget of two, and a count that falls from two to one. -/
theorem stale_count_booked :
    (∃ (w : SampleBacklog) (deeds : List (Bool × Deed Unit)),
      Run (Step 2) sampleBacklog deeds w ∧ (∀ x ∈ deeds, x.2.writes = true) ∧
        2 < w.failures ()) ∧
      ∃ (w w' : SampleBacklog) (deeds : List (Bool × Deed Unit)),
        Run (Step 3) sampleBacklog deeds w ∧ (∀ x ∈ deeds, x.2.writes = true) ∧
          Step 3 w (false, .book true) w' ∧ ¬ CountsGrow w w' := by
  constructor
  · have hsome : ((staleSweeps ++ sampleFailure false ++ sampleBook false ++ sampleRead true ++
        sampleFailure true).foldlM (fun w x => act 2 w x.1 x.2) sampleBacklog).map
          (·.failures ()) = some 3 := by
      decide +kernel
    obtain ⟨w, hw, hfailures⟩ := Option.map_eq_some_iff.mp hsome
    exact ⟨w, _, run_of_act hw, by decide, by omega⟩
  · have hsome : ((staleSweeps ++ sampleSweep true ++ sampleFailure false).foldlM
        (fun w x => act 3 w x.1 x.2) sampleBacklog).bind (fun w =>
          (act 3 w false (.book true)).map fun w' => (w.dir (), w'.dir ())) =
            some (some ⟨some 2⟩, some ⟨some 1⟩) := by
      decide +kernel
    obtain ⟨w, hw, hbook⟩ := Option.bind_eq_some_iff.mp hsome
    obtain ⟨w', hact, hdirs⟩ := Option.map_eq_some_iff.mp hbook
    obtain ⟨hdir, hdir'⟩ := Prod.mk.inj hdirs
    refine ⟨w, w', _, run_of_act hw, by decide, hact, fun hgrow => ?_⟩
    exact absurd (hgrow () _ _ hdir hdir') (by decide)

end TrwMcp.Journal.Sweeps
